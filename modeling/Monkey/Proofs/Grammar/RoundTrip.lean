import Monkey.Proofs.Grammar.NestingLimit
import Monkey.Proofs.Token.Spelling
import Monkey.Tree.Alike
import Monkey.Tree.Rendering

namespace Monkey.Grammar

/-! Trees of operators, written out and read again.

The text of a tree has parentheses around every operator, so that what is read again is a
group around each.  Groups leave no node, but each of them opens a level.
-/

/-- Trees of names, integers, truth values, operators and calls, with the tokens that they
have in a source. -/
inductive OperatorTree : Expr → Prop
  | name {text : String} {span : Span} (isName : IsName text) :
      OperatorTree (.identifier ⟨⟨.identifier, text, span⟩, text⟩)
  | integer {text : String} {span : Span} (isNumeral : IsNumeral text) :
      OperatorTree (.integer ⟨.integer, text, span⟩
        ((Token.integer? ⟨.integer, text, span⟩).getD 0))
  | true {span : Span} : OperatorTree (.boolean ⟨.trueKeyword, "true", span⟩ true)
  | false {span : Span} : OperatorTree (.boolean ⟨.falseKeyword, "false", span⟩ false)
  | unary {kind : Kind} {text : String} {span : Span} {operand : Expr}
      (operates : (kind, text) ∈ Kind.prefixOperators) (tree : OperatorTree operand) :
      OperatorTree (.unary ⟨kind, text, span⟩ text operand)
  | binary {kind : Kind} {text : String} {span : Span} {left right : Expr}
      (operates : (kind, text) ∈ Kind.infixOperators) (leftTree : OperatorTree left)
      (rightTree : OperatorTree right) :
      OperatorTree (.binary ⟨kind, text, span⟩ left text right)
  | call {span : Span} {callee : Expr} {arguments : List Expr} (tree : OperatorTree callee)
      (trees : ∀ argument ∈ arguments, OperatorTree argument) :
      OperatorTree (.call ⟨.openParen, "(", span⟩ callee arguments)

mutual

/-- How many levels are open at once when the text of such a tree is read as a statement. -/
def depth : Expr → Nat
  | .unary _ _ operand => 2 + depth operand
  | .binary _ left _ right => max (1 + depth left) (2 + depth right)
  | .call _ callee arguments => max (depth callee) (1 + depths arguments)
  | _ => 1
termination_by structural tree => tree

def depths : List Expr → Nat
  | [] => 0
  | argument :: arguments => max (depth argument) (depths arguments)
termination_by structural trees => trees

end

mutual

/-- What is wrong with the integers of such a tree, from left to right. -/
def oversized : Expr → List Cause
  | .integer token _ =>
      if token.integer? = none then [.integerOutOfRange token.text] else []
  | .unary _ _ operand => oversized operand
  | .binary _ left _ right => oversized left ++ oversized right
  | .call _ callee arguments => oversized callee ++ oversizedAll arguments
  | _ => []
termination_by structural tree => tree

def oversizedAll : List Expr → List Cause
  | [] => []
  | argument :: arguments => oversized argument ++ oversizedAll arguments
termination_by structural trees => trees

end

/-- Tokens that are read as a tree like this one. -/
structure Rereads (tree : Expr) (tokens : List Token) : Prop where
  derived : ∃ again nesting, Derives (.expression .call) tokens again nesting ∧
    nesting < depth tree ∧ again.alike tree = true
  recorded : (tokens.flatMap Token.excess).map Diagnostic.cause = oversized tree

/-- Tokens that are read as a list of trees like these. -/
structure RereadsAll (trees : List Expr) (tokens : List Token) : Prop where
  derived : ∃ again nesting, Derives .items tokens again nesting ∧
    nesting ≤ depths trees ∧ argumentsAlike again trees = true
  recorded : (tokens.flatMap Token.excess).map Diagnostic.cause = oversizedAll trees

namespace Rereads

variable {tokens leftTokens rightTokens : List Token} {tree left right : Expr}
  {opening closing operator : Token} {kind : Kind} {text : String} {span : Span}

theorem excess_of_ne {token : Token} (plain : token.kind ≠ .integer) : token.excess = [] := by
  simp [Token.excess, plain]

theorem atom {token : Token} {again : Expr}
    (derived : Derives (.expression .primary) [token] again 0) (alike : again.alike tree = true)
    (positive : 0 < depth tree)
    (recorded : token.excess.map Diagnostic.cause = oversized tree) : Rereads tree [token] where
  derived := ⟨again, 0, derived.loosen (by decide), positive, alike⟩
  recorded := by simpa using recorded

theorem unary (operates : (kind, text) ∈ Kind.prefixOperators) (operand : Rereads tree tokens)
    (made : operator = ⟨kind, text, operator.span⟩) (opens : opening.kind = .openParen)
    (closes : closing.kind = .closeParen) :
    Rereads (.unary ⟨kind, text, span⟩ text tree)
      (opening :: operator :: (tokens ++ [closing])) := by
  obtain ⟨again, nesting, derivation, few, alike⟩ := operand.derived
  have kinds : operator.kind = .not ∨ operator.kind = .dash := by
    rw [made]
    simp only [Kind.prefixOperators, List.mem_cons, Prod.mk.injEq, List.not_mem_nil,
      or_false] at operates
    exact operates.imp And.left And.left
  have plain : operator.kind ≠ .integer := by
    rcases kinds with same | same <;> simp [same]
  have inside : Derives (.expression .unary) tokens again nesting := derivation.loosen (by decide)
  have whole := Derives.group opens ((Derives.unary kinds inside).loosen (by decide)) closes
  refine ⟨⟨_, _, whole.loosen (by decide), ?_, ?_⟩, ?_⟩
  · show nesting + 1 + 1 < 2 + depth tree
    omega
  · rw [made]
    show (Token.alike _ _ && decide (text = text) && Expr.alike again tree) = true
    simp [Token.alike, alike]
  · show _ = oversized tree
    simp [excess_of_ne, opens, closes, plain, operand.recorded]

theorem level_of_infix (operates : (kind, text) ∈ Kind.infixOperators) :
    ∃ level tight : Level, level.next? = some tight ∧ kind ∈ level.operators ∧
      level.rank ≤ Level.call.rank ∧ tight.rank ≤ Level.call.rank ∧ kind ≠ .integer := by
  simp only [Kind.infixOperators, List.mem_cons, Prod.mk.injEq, List.not_mem_nil,
    or_false] at operates
  rcases operates with ⟨rfl, -⟩ | ⟨rfl, -⟩ | ⟨rfl, -⟩ | ⟨rfl, -⟩ | ⟨rfl, -⟩ | ⟨rfl, -⟩ | ⟨rfl, -⟩ |
    ⟨rfl, -⟩
  · exact ⟨.equality, _, rfl, by decide⟩
  · exact ⟨.equality, _, rfl, by decide⟩
  · exact ⟨.comparison, _, rfl, by decide⟩
  · exact ⟨.comparison, _, rfl, by decide⟩
  · exact ⟨.sum, _, rfl, by decide⟩
  · exact ⟨.sum, _, rfl, by decide⟩
  · exact ⟨.product, _, rfl, by decide⟩
  · exact ⟨.product, _, rfl, by decide⟩

theorem binary (operates : (kind, text) ∈ Kind.infixOperators) (leftAgain : Rereads left leftTokens)
    (rightAgain : Rereads right rightTokens) (made : operator = ⟨kind, text, operator.span⟩)
    (opens : opening.kind = .openParen) (closes : closing.kind = .closeParen) :
    Rereads (.binary ⟨kind, text, span⟩ left text right)
      (opening :: (leftTokens ++ operator :: (rightTokens ++ [closing]))) := by
  obtain ⟨leftTree, leftNesting, leftDerived, leftFew, leftAlike⟩ := leftAgain.derived
  obtain ⟨rightTree, rightNesting, rightDerived, rightFew, rightAlike⟩ := rightAgain.derived
  obtain ⟨level, tight, step, member, leftRank, rightRank, plain⟩ := level_of_infix operates
  have same : operator.kind = kind := by rw [made]
  have inside := Derives.binary step (by rwa [same]) (leftDerived.loosen leftRank)
    (rightDerived.loosen rightRank)
  have whole := Derives.group opens (inside.loosen (Nat.zero_le _)) closes
  rw [List.append_assoc] at whole
  refine ⟨⟨_, _, whole.loosen (by decide), ?_, ?_⟩, ?_⟩
  · show max leftNesting (rightNesting + 1) + 1 < max (1 + depth left) (2 + depth right)
    omega
  · rw [made]
    show (Token.alike _ _ && Expr.alike leftTree left && decide (text = text) &&
      Expr.alike rightTree right) = true
    simp [Token.alike, leftAlike, rightAlike]
  · show _ = oversized left ++ oversized right
    simp [excess_of_ne, opens, closes, same, plain, leftAgain.recorded, rightAgain.recorded]

theorem call {arguments : List Expr} {again : List Expr} {nesting : Nat}
    (callee : Rereads tree leftTokens) (made : opening = ⟨.openParen, "(", opening.span⟩)
    (derived : Derives .arguments tokens again nesting) (few : nesting ≤ depths arguments)
    (alike : argumentsAlike again arguments = true)
    (recorded : (tokens.flatMap Token.excess).map Diagnostic.cause = oversizedAll arguments)
    (closes : closing.kind = .closeParen) :
    Rereads (.call ⟨.openParen, "(", span⟩ tree arguments)
      (leftTokens ++ opening :: (tokens ++ [closing])) := by
  obtain ⟨calleeTree, calleeNesting, calleeDerived, calleeFew, calleeAlike⟩ := callee.derived
  have opens : opening.kind = .openParen := by rw [made]
  refine ⟨⟨_, _, .call calleeDerived opens derived closes, ?_, ?_⟩, ?_⟩
  · show max calleeNesting nesting < max (depth tree) (1 + depths arguments)
    omega
  · rw [made]
    show (Token.alike _ _ && Expr.alike calleeTree tree && argumentsAlike again arguments) = true
    simp [Token.alike, calleeAlike, alike]
  · show _ = oversized tree ++ oversizedAll arguments
    simp [excess_of_ne, opens, closes, callee.recorded, recorded]

end Rereads

namespace RereadsAll

variable {tokens otherTokens : List Token} {tree : Expr} {trees : List Expr} {comma : Token}

theorem one (item : Rereads tree tokens) : RereadsAll [tree] tokens := by
  obtain ⟨again, nesting, derivation, few, alike⟩ := item.derived
  refine ⟨⟨[again], _, .lastItem (derivation.loosen (by decide)), ?_, ?_⟩, ?_⟩
  · show nesting + 1 ≤ max (depth tree) 0
    omega
  · show (Expr.alike again tree && true) = true
    rw [alike, Bool.and_true]
  · show _ = oversized tree ++ []
    rw [item.recorded, List.append_nil]

theorem more (item : Rereads tree tokens) (separates : comma.kind = .comma)
    (others : RereadsAll trees otherTokens) :
    RereadsAll (tree :: trees) (tokens ++ comma :: otherTokens) := by
  obtain ⟨again, nesting, derivation, few, alike⟩ := item.derived
  obtain ⟨others', othersNesting, othersDerived, othersFew, othersAlike⟩ := others.derived
  refine ⟨⟨again :: others', _, .item (derivation.loosen (by decide)) separates othersDerived,
    ?_, ?_⟩, ?_⟩
  · show max (nesting + 1) othersNesting ≤ max (depth tree) (depths trees)
    omega
  · show (Expr.alike again tree && argumentsAlike others' trees) = true
    rw [alike, othersAlike, Bool.and_true]
  · show _ = oversized tree ++ oversizedAll trees
    simp [Rereads.excess_of_ne, separates, item.recorded, others.recorded]

end RereadsAll

/-- The characters that end a word and a number alike. -/
def Delimits (c : Char) : Prop :=
  isWordCharacter c = false ∧ c.isDigit = false

theorem Delimits.of_mem {c : Char} (member : c ∈ [' ', '(', ')', ',', ';']) : Delimits c := by
  simp only [List.mem_cons, List.not_mem_nil, or_false] at member
  rcases member with rfl | rfl | rfl | rfl | rfl <;> exact ⟨rfl, rfl⟩

/-- The text of a tree is read as a tree like it, wherever it stands. -/
def Readable (tree : Expr) : Prop :=
  ∀ (file : String) (rest : List Char), (∀ c ∈ rest.head?, Delimits c) →
    Lexes file (tree.text.toList ++ rest) rest (Rereads tree)

namespace Readable

variable {tree left right : Expr} {kind : Kind} {text : String} {span : Span}

theorem name (isName : IsName text) :
    Readable (.identifier ⟨⟨.identifier, text, span⟩, text⟩) := by
  intro file rest delimited
  apply ((Spells.name isName).lexes fun c member => (delimited c member).1).mono
  intro _ spelled
  obtain ⟨place, rfl⟩ := spelled
  refine .atom (.name rfl) ?_ Nat.one_pos rfl
  show (Token.alike _ _ && decide (text = text)) = true
  simp [Token.alike]

theorem integer (isNumeral : IsNumeral text) :
    Readable (.integer ⟨.integer, text, span⟩
      ((Token.integer? ⟨.integer, text, span⟩).getD 0)) := by
  intro file rest delimited
  apply ((Spells.numeral isNumeral).lexes fun c member => (delimited c member).2).mono
  intro _ spelled
  obtain ⟨place, rfl⟩ := spelled
  have same : Token.integer? ⟨.integer, text, place⟩ = Token.integer? ⟨.integer, text, span⟩ := rfl
  refine .atom (.integer rfl) ?_ Nat.one_pos ?_
  · show (Token.alike _ _ && decide (_ = _)) = true
    simp [Token.alike, same]
  · show _ = if Token.integer? ⟨.integer, text, span⟩ = none then _ else _
    by_cases large : Token.integer? ⟨.integer, text, span⟩ = none <;>
      simp [Token.excess, same, large]

theorem true : Readable (.boolean ⟨.trueKeyword, "true", span⟩ true) := by
  intro file rest delimited
  apply (Spells.trueKeyword.lexes fun c member => (delimited c member).1).mono
  intro _ spelled
  obtain ⟨place, rfl⟩ := spelled
  exact .atom (.true rfl) rfl Nat.one_pos rfl

theorem false : Readable (.boolean ⟨.falseKeyword, "false", span⟩ false) := by
  intro file rest delimited
  apply (Spells.falseKeyword.lexes fun c member => (delimited c member).1).mono
  intro _ spelled
  obtain ⟨place, rfl⟩ := spelled
  exact .atom (.false rfl) rfl Nat.one_pos rfl

theorem followed {rest others : List Char} (readable : Readable tree) {c : Char} {file : String}
    (starts : rest = c :: others) (member : c ∈ [' ', '(', ')', ',', ';']) :
    Lexes file (tree.text.toList ++ rest) rest (Rereads tree) := by
  apply readable file rest
  intro d first
  obtain rfl : c = d := by simpa [starts] using first
  exact .of_mem member

theorem unary (operates : (kind, text) ∈ Kind.prefixOperators) (readable : Readable tree)
    (apart : ∀ rest, ∀ c ∈ (tree.text.toList ++ rest).head?, c ≠ '=') :
    Readable (.unary ⟨kind, text, span⟩ text tree) := by
  intro file rest _
  show Lexes file (("(" ++ text ++ tree.text ++ ")").toList ++ rest) rest _
  simp only [String.toList_append, List.append_assoc]
  apply Lexes.andThen (Spells.openParen.lexes fun _ _ => trivial)
  apply Lexes.andThen ((Spells.prefixOperator operates).lexes (apart _))
  apply Lexes.andThen (readable.followed rfl (by decide))
  apply (Spells.closeParen.lexes fun _ _ => trivial).mono
  rintro _ ⟨closing, rfl⟩ tokens again _ ⟨operator, rfl⟩ _ ⟨opening, rfl⟩
  exact again.unary operates rfl rfl rfl

theorem binary (operates : (kind, text) ∈ Kind.infixOperators) (leftReadable : Readable left)
    (rightReadable : Readable right) : Readable (.binary ⟨kind, text, span⟩ left text right) := by
  intro file rest _
  show Lexes file
    (("(" ++ left.text ++ " " ++ text ++ " " ++ right.text ++ ")").toList ++ rest) rest _
  simp only [String.toList_append, List.append_assoc]
  apply Lexes.andThen (Spells.openParen.lexes fun _ _ => trivial)
  apply Lexes.andThen (leftReadable.followed rfl (by decide))
  apply Lexes.andThen .space
  apply Lexes.andThen ((Spells.infixOperator operates).spaced trivial)
  apply Lexes.andThen (rightReadable.followed rfl (by decide))
  apply (Spells.closeParen.lexes fun _ _ => trivial).mono
  rintro _ ⟨closing, rfl⟩ rightTokens rightAgain _ ⟨operator, rfl⟩ _ rfl leftTokens leftAgain
    _ ⟨opening, rfl⟩
  exact leftAgain.binary operates rightAgain rfl rfl rfl

theorem items {trees : List Expr} (present : trees ≠ [])
    (readable : ∀ tree ∈ trees, Readable tree) (file : String) (rest : List Char) :
    Lexes file ((String.intercalate ", " (argumentTexts trees)).toList ++ (")".toList ++ rest))
      (")".toList ++ rest) (RereadsAll trees) := by
  induction trees with
  | nil => exact absurd rfl present
  | cons tree trees ih =>
      obtain ⟨first, others⟩ := List.forall_mem_cons.1 readable
      cases trees with
      | nil =>
          show Lexes file ((String.intercalate ", " [tree.text]).toList ++ _) _ _
          rw [String.intercalate_singleton]
          apply (first.followed rfl (by decide)).mono
          intro tokens again
          exact .one again
      | cons second trees =>
          have split : String.intercalate ", " (argumentTexts (tree :: second :: trees)) =
              tree.text ++ ("," ++ " ") ++
                String.intercalate ", " (argumentTexts (second :: trees)) :=
            String.intercalate_cons_cons
          rw [split]
          simp only [String.toList_append, List.append_assoc]
          apply Lexes.andThen (first.followed rfl (by decide))
          apply Lexes.andThen (Spells.comma.lexes fun _ _ => trivial)
          apply Lexes.andThen .space
          apply (ih (by simp) others).mono
          rintro othersTokens othersAgain _ rfl _ ⟨comma, rfl⟩ tokens again
          exact .more again rfl othersAgain

theorem call {arguments : List Expr} (readable : Readable tree)
    (argumentsReadable : ∀ argument ∈ arguments, Readable argument) :
    Readable (.call ⟨.openParen, "(", span⟩ tree arguments) := by
  intro file rest _
  show Lexes file ((tree.text ++ "(" ++ String.intercalate ", " (argumentTexts arguments) ++
    ")").toList ++ rest) rest _
  simp only [String.toList_append, List.append_assoc]
  apply Lexes.andThen (readable.followed rfl (by decide))
  apply Lexes.andThen (Spells.openParen.lexes fun _ _ => trivial)
  cases arguments with
  | nil =>
      apply (Spells.closeParen.lexes fun _ _ => trivial).mono
      rintro _ ⟨closing, rfl⟩ _ ⟨opening, rfl⟩ tokens again
      exact again.call rfl .noArguments (Nat.zero_le _) rfl rfl rfl
  | cons argument arguments =>
      apply Lexes.andThen (items (by simp) argumentsReadable file rest)
      apply (Spells.closeParen.lexes fun _ _ => trivial).mono
      rintro _ ⟨closing, rfl⟩ tokens ⟨⟨trees, nesting, derived, few, alike⟩, recorded⟩ _
        ⟨opening, rfl⟩ calleeTokens again
      exact again.call rfl (.someArguments derived) few alike recorded rfl

end Readable

namespace OperatorTree

variable {tree : Expr}

/-- The text of a tree starts with a word, a number or a parenthesis. -/
theorem starts (operators : OperatorTree tree) :
    ∃ first others, tree.text.toList = first :: others ∧
      (first = '(' ∨ isWordCharacter first = Bool.true ∨ first.isDigit = Bool.true) := by
  induction operators with
  | @name text span isName =>
      obtain ⟨first, others, whole⟩ := List.exists_cons_of_ne_nil isName.nonempty
      exact ⟨first, others, whole, .inr (.inl (isName.letters first (by simp [whole])))⟩
  | @integer text span isNumeral =>
      obtain ⟨first, others, whole⟩ := List.exists_cons_of_ne_nil isNumeral.nonempty
      exact ⟨first, others, whole, .inr (.inr (isNumeral.digits first (by simp [whole])))⟩
  | true =>
      refine ⟨'t', ['r', 'u', 'e'], ?_, .inr (.inl rfl)⟩
      show "true".toList = _
      decide
  | false =>
      refine ⟨'f', ['a', 'l', 's', 'e'], ?_, .inr (.inl rfl)⟩
      show "false".toList = _
      decide
  | @unary kind text span operand operates tree ih =>
      refine ⟨'(', text.toList ++ operand.text.toList ++ [')'], ?_, .inl rfl⟩
      show ("(" ++ text ++ operand.text ++ ")").toList = _
      simp
  | @binary kind text span left right operates leftTree rightTree leftIH rightIH =>
      refine ⟨'(', (left.text ++ " " ++ text ++ " " ++ right.text ++ ")").toList, ?_, .inl rfl⟩
      show ("(" ++ left.text ++ " " ++ text ++ " " ++ right.text ++ ")").toList = _
      simp
  | @call span callee arguments tree trees ih treesIH =>
      obtain ⟨first, others, whole, sort⟩ := ih
      refine ⟨first, others ++ ("(" ++ String.intercalate ", " (argumentTexts arguments) ++
        ")").toList, ?_, sort⟩
      show (callee.text ++ "(" ++ String.intercalate ", " (argumentTexts arguments) ++
        ")").toList = _
      simp [whole]

theorem readable (operators : OperatorTree tree) : Readable tree := by
  induction operators with
  | name isName => exact .name isName
  | integer isNumeral => exact .integer isNumeral
  | true => exact .true
  | false => exact .false
  | unary operates tree ih =>
      refine .unary operates ih ?_
      obtain ⟨first, others, whole, sort⟩ := tree.starts
      intro rest c member
      obtain rfl : first = c := by simpa [whole] using member
      rintro rfl
      exact absurd sort (by decide)
  | binary operates leftTree rightTree leftIH rightIH => exact .binary operates leftIH rightIH
  | call tree trees ih treesIH => exact .call ih treesIH

end OperatorTree

/-- A source is read as one statement of some sort, and no more is wrong with it than this. -/
def ReadAs (source : String) (file : Option String) (sort : Statement → Prop)
    (causes : List Cause) : Prop :=
  ∃ statement after, parse source file = .ok ⟨[statement]⟩ after ∧ sort statement ∧
    after.diagnostics.toList.map Diagnostic.cause = causes

theorem ReadAs.of_lexes {source : String} {file : Option String} {sort : Statement → Prop}
    {causes : List Cause}
    (lexes : Lexes (file.getD Lexer.defaultFile) source.toList [] fun tokens =>
      ∃ statement nesting, Derives .statements tokens [statement] nesting ∧
        nesting ≤ nestingLimit ∧ sort statement ∧
        (tokens.flatMap Token.excess).map Diagnostic.cause = causes) :
    ReadAs source file sort causes := by
  obtain ⟨tokens, whole, statement, nesting, derivation, fits, kept, recorded⟩ := lexes.tokenize_eq
  have program : Derives .program (tokenize source file) ⟨[statement]⟩ nesting := by
    rw [whole]
    exact .program derivation rfl
  obtain ⟨after, parsed, excess⟩ := program.parse_eq fits
  refine ⟨statement, after, parsed, kept, ?_⟩
  rw [excess, whole, List.flatMap_append, List.map_append, recorded]
  simp [Rereads.excess_of_ne, Lexer.finish, Token.endOfInput]

namespace OperatorTree

variable {tree : Expr}

theorem expression_readAs (operators : OperatorTree tree) (few : depth tree ≤ nestingLimit)
    (file : Option String) :
    ReadAs tree.text file
      (fun statement => ∃ token value, statement = .expression token value ∧
        value.alike tree) (oversized tree) := by
  apply ReadAs.of_lexes
  have lexes := operators.readable (file.getD Lexer.defaultFile) [] (by simp)
  rw [List.append_nil] at lexes
  apply lexes.mono
  intro tokens spelled
  obtain ⟨⟨again, nesting, derivation, bound, alike⟩, recorded⟩ := spelled
  obtain ⟨first, whole⟩ := derivation.alone
  exact ⟨_, _, whole, by omega, ⟨first, again, rfl, alike⟩, recorded⟩

theorem binding_readAs (operators : OperatorTree tree) (few : depth tree ≤ nestingLimit)
    (file : Option String) {name : String} {span nameSpan : Span} {statement : Statement}
    (isName : IsName name)
    (made : statement = .binding ⟨.letKeyword, "let", span⟩
      ⟨⟨.identifier, name, nameSpan⟩, name⟩ tree) :
    ReadAs statement.text file (fun again => again.alike statement) (oversized tree) := by
  subst made
  apply ReadAs.of_lexes
  have split : " = " = " " ++ ("=" ++ " ") := rfl
  show Lexes _ ("let" ++ " " ++ name ++ " = " ++ tree.text ++ ";").toList [] _
  simp only [split, String.toList_append, List.append_assoc]
  apply Lexes.andThen (Spells.letKeyword.spaced rfl)
  apply Lexes.andThen ((Spells.name isName).spaced rfl)
  apply Lexes.andThen (Spells.assignment.spaced (by decide))
  apply Lexes.andThen (operators.readable.followed rfl (by decide))
  apply (Spells.semicolon.lexes fun _ _ => trivial).mono
  rintro _ ⟨closing, rfl⟩ tokens ⟨⟨again, nesting, derivation, bound, alike⟩, recorded⟩
    _ ⟨sign, rfl⟩ _ ⟨place, rfl⟩ _ ⟨keyword, rfl⟩
  have binds : Derives .statement (⟨.letKeyword, "let", keyword⟩ :: ⟨.identifier, name, place⟩ ::
      ⟨.assignment, "=", sign⟩ :: tokens) _ _ :=
    .binding rfl rfl rfl (derivation.loosen (by decide))
  have closes : Token.kind ⟨.semicolon, ";", closing⟩ = .semicolon := rfl
  have whole := Derives.closed binds closes .noStatements
  rw [Nat.max_zero] at whole
  refine ⟨_, _, whole, by omega, ?_, ?_⟩
  · show Token.alike _ _ && (Token.alike _ _ && decide (name = name)) && Expr.alike again tree
    simp [Token.alike, alike]
  · simp [Rereads.excess_of_ne, recorded]

theorem result_readAs (operators : OperatorTree tree) (few : depth tree ≤ nestingLimit)
    (file : Option String) {span : Span} {statement : Statement}
    (made : statement = .result ⟨.returnKeyword, "return", span⟩ tree) :
    ReadAs statement.text file (fun again => again.alike statement) (oversized tree) := by
  subst made
  apply ReadAs.of_lexes
  show Lexes _ ("return" ++ " " ++ tree.text ++ ";").toList [] _
  simp only [String.toList_append, List.append_assoc]
  apply Lexes.andThen (Spells.returnKeyword.spaced rfl)
  apply Lexes.andThen (operators.readable.followed rfl (by decide))
  apply (Spells.semicolon.lexes fun _ _ => trivial).mono
  rintro _ ⟨closing, rfl⟩ tokens ⟨⟨again, nesting, derivation, bound, alike⟩, recorded⟩
    _ ⟨keyword, rfl⟩
  have returns : Derives .statement (⟨.returnKeyword, "return", keyword⟩ :: tokens) _ _ :=
    .result rfl (derivation.loosen (by decide))
  have closes : Token.kind ⟨.semicolon, ";", closing⟩ = .semicolon := rfl
  have whole := Derives.closed returns closes .noStatements
  rw [Nat.max_zero] at whole
  refine ⟨_, _, whole, by omega, ?_, ?_⟩
  · show Token.alike ⟨.returnKeyword, "return", keyword⟩ ⟨.returnKeyword, "return", span⟩ &&
      Expr.alike again tree
    simp [Token.alike, alike]
  · simp [Rereads.excess_of_ne, recorded]

end OperatorTree

/-- The text of a tree of operators is read as an expression like it, and the texts of the
statements that bind and return it are read as statements like them.  Nothing is reported but
the integers that are too large. -/
theorem parse_text {tree : Expr} (operators : OperatorTree tree)
    (few : depth tree ≤ nestingLimit) (file : Option String) :
    ReadAs tree.text file
      (fun statement => ∃ token value, statement = .expression token value ∧
        value.alike tree) (oversized tree) ∧
    (∀ name span nameSpan statement, IsName name →
      statement = .binding ⟨.letKeyword, "let", span⟩ ⟨⟨.identifier, name, nameSpan⟩, name⟩ tree →
      ReadAs statement.text file (fun again => again.alike statement) (oversized tree)) ∧
    (∀ span statement, statement = .result ⟨.returnKeyword, "return", span⟩ tree →
      ReadAs statement.text file (fun again => again.alike statement) (oversized tree)) :=
  ⟨operators.expression_readAs few file,
    fun _ _ _ _ isName made => operators.binding_readAs few file isName made,
    fun _ _ made => operators.result_readAs few file made⟩

theorem parse_text_sum :
    ReadAs "(a + 99999999999999999999)" none (fun statement =>
      ∃ token value, statement = .expression token value)
      [.integerOutOfRange "99999999999999999999"] := by
  let span : Span := .between "" 0 0
  let sum : Expr := .binary ⟨.plus, "+", span⟩ (.identifier ⟨⟨.identifier, "a", span⟩, "a"⟩) "+"
    (.integer ⟨.integer, "99999999999999999999", span⟩ 0)
  have name : IsName "a" := ⟨by decide, List.all_eq_true.1 rfl, by decide⟩
  have numeral : IsNumeral "99999999999999999999" :=
    ⟨by decide, List.all_eq_true.1 rfl⟩
  have large : (Token.integer? ⟨.integer, "99999999999999999999", span⟩).getD 0 = 0 := by
    decide +kernel
  have integer : OperatorTree (.integer ⟨.integer, "99999999999999999999", span⟩ 0) :=
    large ▸ .integer numeral
  have operators : OperatorTree sum := .binary (by decide) (.name name) integer
  obtain ⟨statement, after, parsed, ⟨token, value, same, _⟩, recorded⟩ :=
    (parse_text operators (by decide) none).1
  have causes : oversized sum = [.integerOutOfRange "99999999999999999999"] := by decide +kernel
  exact ⟨statement, after, parsed, ⟨token, value, same⟩, recorded.trans causes⟩

end Monkey.Grammar
