import Monkey.Proofs.Grammar.RoundTrip
import Monkey.Proofs.Tree.Alike

namespace Monkey.Grammar

/-! The text of a tree of operators tells the tree.

A callee is written before its arguments, so that from left to right a text is taken apart
into what is called and the argument lists after it: what is called is a word or stands in
parentheses, and no operand goes on after what stops it.
-/

/-- The characters of words and numbers. -/
def isAtomic (c : Char) : Bool :=
  isWordCharacter c || c.isDigit

theorem Delimits.not_isAtomic {c : Char} (delimits : Delimits c) : isAtomic c = false := by
  simp [isAtomic, delimits.1, delimits.2]

/-- The text ends here, or goes on with what stands after an operand. -/
def Stops (rest : List Char) : Prop :=
  ∀ c ∈ rest.head?, c ∈ [' ', ')', ',']

/-- From its text before something that stops it, a tree can be told. -/
def Exact (tree : Expr) : Prop :=
  ∀ {other : Expr} {rest others : List Char}, OperatorTree other → Stops rest → Stops others →
    tree.text.toList ++ rest = other.text.toList ++ others →
      tree.alike other = true ∧ rest = others

/-- Trees that are words or numbers. -/
inductive Atom : Expr → Prop
  | mk {kind : Kind} {text : String} (span : Span) (reads : Reads text kind [])
      (nonempty : text.toList ≠ []) (atomic : ∀ c ∈ text.toList, isAtomic c = true) :
      Atom (.ofToken ⟨kind, text, span⟩)

theorem ofToken_text (token : Token) : (Expr.ofToken token).text = token.text := by
  unfold Expr.ofToken
  split <;> rfl

theorem ofToken_alike {kind : Kind} {text : String} (span other : Span) :
    (Expr.ofToken ⟨kind, text, span⟩).alike (.ofToken ⟨kind, text, other⟩) = true := by
  have values : Token.integer? ⟨kind, text, span⟩ = Token.integer? ⟨kind, text, other⟩ := rfl
  have same : Token.alike ⟨kind, text, span⟩ ⟨kind, text, other⟩ = true := by simp [Token.alike]
  cases kind <;> simp [Expr.ofToken, Expr.alike, Identifier.alike, same, values]

namespace Atom

variable {text : String} {span : Span} {tree other : Expr}

theorem name (isName : IsName text) : Atom (.identifier ⟨⟨.identifier, text, span⟩, text⟩) := by
  have reads : Reads text (Kind.ofWord text) [] := .word isName.nonempty isName.letters (by simp)
  rw [isName.ofWord] at reads
  refine .mk span reads isName.nonempty fun c member => ?_
  simp [isAtomic, isName.letters c member]

theorem integer (isNumeral : IsNumeral text) :
    Atom (.integer ⟨.integer, text, span⟩
      ((Token.integer? ⟨.integer, text, span⟩).getD 0)) := by
  refine .mk span (.numeral isNumeral (by simp)) isNumeral.nonempty fun c member => ?_
  simp [isAtomic, isNumeral.digits c member]

theorem trueWord : Atom (.boolean ⟨.trueKeyword, "true", span⟩ true) := by
  have reads : Reads "true" .trueKeyword [] :=
    .word (by decide) (List.all_eq_true.1 rfl) (by simp)
  exact .mk span reads (by decide) (List.all_eq_true.1 rfl)

theorem falseWord : Atom (.boolean ⟨.falseKeyword, "false", span⟩ false) := by
  have reads : Reads "false" .falseKeyword [] :=
    .word (by decide) (List.all_eq_true.1 rfl) (by simp)
  exact .mk span reads (by decide) (List.all_eq_true.1 rfl)

/-- A word stands for one tree. -/
theorem alike_of_text (atom : Atom tree) (otherAtom : Atom other) (same : tree.text = other.text) :
    tree.alike other = true := by
  obtain ⟨span, reads, _, _⟩ := atom
  obtain ⟨otherSpan, readsOther, _, _⟩ := otherAtom
  rw [ofToken_text, ofToken_text] at same
  cases same
  cases reads.kind_eq readsOther
  exact ofToken_alike span otherSpan

theorem text_atomic (atom : Atom tree) :
    tree.text.toList ≠ [] ∧ ∀ c ∈ tree.text.toList, isAtomic c = true := by
  obtain ⟨span, _, nonempty, atomic⟩ := atom
  rw [ofToken_text]
  exact ⟨nonempty, atomic⟩

end Atom

/-- An operator before an operand is one character, which starts no operand. -/
theorem prefixOperator_text {kind : Kind} {text : String}
    (operates : (kind, text) ∈ Kind.prefixOperators) :
    ∃ c, text.toList = [c] ∧ isAtomic c = false ∧ c ≠ '(' := by
  simp only [Kind.prefixOperators, List.mem_cons, Prod.mk.injEq, List.not_mem_nil,
    or_false] at operates
  rcases operates with ⟨-, rfl⟩ | ⟨-, rfl⟩
  · exact ⟨'!', rfl, by decide⟩
  · exact ⟨'-', rfl, by decide⟩

/-- Operators of one sort that are written alike are the same. -/
theorem operator_kind_eq {operators : List (Kind × String)} {kind other : Kind} {text : String}
    (sort : operators ∈ [Kind.prefixOperators, Kind.infixOperators])
    (operates : (kind, text) ∈ operators) (again : (other, text) ∈ operators) : kind = other := by
  have all : ∀ operators ∈ [Kind.prefixOperators, Kind.infixOperators], ∀ first ∈ operators,
      ∀ second ∈ operators, first.2 = second.2 → first.1 = second.1 := by decide
  exact all _ sort _ operates _ again rfl

theorem infixOperator_text {kind : Kind} {text : String}
    (operates : (kind, text) ∈ Kind.infixOperators) :
    ∀ c ∈ text.toList, decide (c ≠ ' ') = true := by
  have all : ∀ entry ∈ Kind.infixOperators,
      (entry.2.toList.all fun c => decide (c ≠ ' ')) = true := by
    decide
  exact List.all_eq_true.1 (all _ operates)

theorem unary_text (token : Token) (operator : String) (operand : Expr) (rest : List Char) :
    (Expr.unary token operator operand).text.toList ++ rest =
      '(' :: (operator.toList ++ (operand.text.toList ++ ')' :: rest)) := by
  simp [Expr.text]

theorem binary_text (token : Token) (left : Expr) (operator : String) (right : Expr)
    (rest : List Char) :
    (Expr.binary token left operator right).text.toList ++ rest =
      '(' :: (left.text.toList ++ ' ' :: (operator.toList ++ ' ' ::
        (right.text.toList ++ ')' :: rest))) := by
  simp [Expr.text]

/-- What is no call: a word, or what stands in parentheses. -/
inductive Head : Expr → Prop
  | word (atom : Atom tree) : Head tree
  | unary (operates : (kind, text) ∈ Kind.prefixOperators) (tree : OperatorTree operand) :
      Head (.unary ⟨kind, text, span⟩ text operand)
  | binary (operates : (kind, text) ∈ Kind.infixOperators) (leftTree : OperatorTree left)
      (rightTree : OperatorTree right) : Head (.binary ⟨kind, text, span⟩ left text right)

/-- From its text before what is no word, a tree can be told from all others that are no calls. -/
def HeadExact (tree : Expr) : Prop :=
  ∀ {other : Expr} {rest others : List Char}, Head other →
    (∀ c ∈ rest.head?, Delimits c) → (∀ c ∈ others.head?, Delimits c) →
    tree.text.toList ++ rest = other.text.toList ++ others →
      tree.alike other = true ∧ rest = others

theorem Atom.not_opens {tree : Expr} {rest others : List Char} (atom : Atom tree) :
    tree.text.toList ++ rest ≠ '(' :: others := by
  intro same
  obtain ⟨nonempty, atomic⟩ := atom.text_atomic
  obtain ⟨first, run, whole⟩ := List.exists_cons_of_ne_nil nonempty
  rw [whole] at same
  obtain ⟨rfl, _⟩ := List.cons.inj same
  exact absurd (atomic '(' (by simp [whole])) (by decide)

theorem Atom.headExact {tree : Expr} (atom : Atom tree) : HeadExact tree := by
  intro other rest others head delimited otherDelimited same
  cases head with
  | word otherAtom =>
      obtain ⟨texts, rests⟩ := run_eq_of_append atom.text_atomic.2 otherAtom.text_atomic.2
        (fun c member => (delimited c member).not_isAtomic)
        (fun c member => (otherDelimited c member).not_isAtomic) same
      exact ⟨atom.alike_of_text otherAtom (String.toList_injective texts), rests⟩
  | unary =>
      rw [unary_text] at same
      exact absurd same atom.not_opens
  | binary =>
      rw [binary_text] at same
      exact absurd same atom.not_opens

theorem Stops.of_mem {c : Char} (rest : List Char) (member : c ∈ [' ', ')', ',']) :
    Stops (c :: rest) := by
  rintro d ⟨⟩
  exact member

section Operators

variable {kind : Kind} {text : String} {span : Span} {operand left right : Expr}
  {rest others : List Char}

/-- An operand starts with a word, a number or a parenthesis that opens. -/
theorem cons_ne_text {c : Char} (tree : OperatorTree operand) (plain : isAtomic c = false)
    (other : c ≠ '(') : c :: rest ≠ operand.text.toList ++ others := by
  intro same
  obtain ⟨first, inside, starts, sort⟩ := tree.starts
  rw [starts] at same
  obtain ⟨rfl, _⟩ := List.cons.inj same
  rcases sort with opens | letter | digit
  · exact other opens
  · simp [isAtomic, letter] at plain
  · simp [isAtomic, digit] at plain

theorem prefixOperator_ne (operates : (kind, text) ∈ Kind.prefixOperators)
    (tree : OperatorTree operand) : text.toList ++ rest ≠ operand.text.toList ++ others := by
  obtain ⟨c, whole, plain, other⟩ := prefixOperator_text operates
  rw [whole]
  exact cons_ne_text tree plain other

theorem unary_headExact (operates : (kind, text) ∈ Kind.prefixOperators) (exact : Exact operand) :
    HeadExact (.unary ⟨kind, text, span⟩ text operand) := by
  intro other rest others head _ _ same
  rw [unary_text] at same
  cases head with
  | word atom => exact absurd same.symm atom.not_opens
  | @unary otherKind otherText otherOperand otherSpan otherOperates tree =>
      rw [unary_text] at same
      obtain ⟨c, whole, _⟩ := prefixOperator_text operates
      obtain ⟨d, otherWhole, _⟩ := prefixOperator_text otherOperates
      have inside := (List.cons.inj same).2
      rw [whole, otherWhole] at inside
      obtain ⟨rfl, operands⟩ := List.cons.inj inside
      obtain rfl : text = otherText := String.toList_injective (whole.trans otherWhole.symm)
      obtain ⟨alike, rests⟩ := exact tree (.of_mem _ (by decide)) (.of_mem _ (by decide)) operands
      have kinds := operator_kind_eq (.head _) operates otherOperates
      refine ⟨?_, (List.cons.inj rests).2⟩
      simp [Expr.alike, Token.alike, kinds, alike]
  | binary _ leftTree =>
      rw [binary_text] at same
      exact absurd (List.cons.inj same).2 (prefixOperator_ne operates leftTree)

theorem binary_headExact (operates : (kind, text) ∈ Kind.infixOperators) (tree : OperatorTree left)
    (leftExact : Exact left) (rightExact : Exact right) :
    HeadExact (.binary ⟨kind, text, span⟩ left text right) := by
  intro other rest others head _ _ same
  rw [binary_text] at same
  cases head with
  | word atom => exact absurd same.symm atom.not_opens
  | unary otherOperates =>
      rw [unary_text] at same
      exact absurd (List.cons.inj same).2.symm (prefixOperator_ne otherOperates tree)
  | @binary otherKind otherText otherLeft otherRight otherSpan otherOperates leftTree rightTree =>
      rw [binary_text] at same
      obtain ⟨leftAlike, middle⟩ := leftExact leftTree (.of_mem _ (by decide))
        (.of_mem _ (by decide)) (List.cons.inj same).2
      obtain ⟨texts, spaced⟩ := run_eq_of_append (infixOperator_text operates)
        (infixOperator_text otherOperates) (by simp) (by simp) (List.cons.inj middle).2
      obtain rfl : text = otherText := String.toList_injective texts
      obtain ⟨rightAlike, rests⟩ := rightExact rightTree (.of_mem _ (by decide))
        (.of_mem _ (by decide)) (List.cons.inj spaced).2
      have kinds := operator_kind_eq (.tail _ (.head _)) operates otherOperates
      refine ⟨?_, (List.cons.inj rests).2⟩
      simp [Expr.alike, Token.alike, kinds, leftAlike, rightAlike]

end Operators

/-- Arguments as they stand between their parentheses. -/
def itemsText (arguments : List Expr) : List Char :=
  (String.intercalate ", " (argumentTexts arguments)).toList

/-- Arguments as they stand after another one. -/
def othersText (arguments : List Expr) : List Char :=
  arguments.flatMap fun argument => ',' :: ' ' :: argument.text.toList

theorem itemsText_cons (argument : Expr) (arguments : List Expr) :
    itemsText (argument :: arguments) = argument.text.toList ++ othersText arguments := by
  induction arguments generalizing argument with
  | nil => simp [itemsText, othersText, argumentTexts]
  | cons other arguments ih =>
      have split : itemsText (argument :: other :: arguments) =
          argument.text.toList ++ ',' :: ' ' :: itemsText (other :: arguments) := by
        simp [itemsText, argumentTexts, String.intercalate_cons_cons]
      rw [split, ih other]
      simp [othersText]

section Arguments

variable {arguments items : List Expr} {rest others : List Char}

theorem stops_othersText (arguments : List Expr) (rest : List Char) :
    Stops (othersText arguments ++ ')' :: rest) := by
  cases arguments with
  | nil => exact .of_mem _ (by decide)
  | cons argument arguments => exact .of_mem _ (by decide)

theorem othersText_exact (exact : ∀ argument ∈ arguments, Exact argument)
    (trees : ∀ item ∈ items, OperatorTree item)
    (same : othersText arguments ++ ')' :: rest = othersText items ++ ')' :: others) :
    argumentsAlike arguments items = true ∧ rest = others := by
  induction arguments generalizing items with
  | nil =>
      cases items with
      | nil => exact ⟨rfl, (List.cons.inj same).2⟩
      | cons => cases same
  | cons argument arguments ih =>
      cases items with
      | nil => cases same
      | cons item items =>
          obtain ⟨first, exact⟩ := List.forall_mem_cons.1 exact
          obtain ⟨tree, trees⟩ := List.forall_mem_cons.1 trees
          simp only [othersText, List.flatMap_cons, List.cons_append, List.append_assoc] at same
          obtain ⟨alike, later⟩ := first tree (stops_othersText arguments rest)
            (stops_othersText items others) (List.cons.inj (List.cons.inj same).2).2
          obtain ⟨laterAlike, rests⟩ := ih exact trees later
          exact ⟨by rw [argumentsAlike, alike, laterAlike, Bool.and_self], rests⟩

/-- Arguments can be told from their text up to the parenthesis that closes them. -/
theorem itemsText_exact (exact : ∀ argument ∈ arguments, OperatorTree argument ∧ Exact argument)
    (trees : ∀ item ∈ items, OperatorTree item)
    (same : itemsText arguments ++ ')' :: rest = itemsText items ++ ')' :: others) :
    argumentsAlike arguments items = true ∧ rest = others := by
  cases arguments with
  | nil =>
      cases items with
      | nil => exact ⟨rfl, (List.cons.inj same).2⟩
      | cons item items =>
          rw [itemsText_cons, List.append_assoc] at same
          exact absurd same (cons_ne_text (trees item (by simp)) (by decide) (by decide))
  | cons argument arguments =>
      obtain ⟨⟨argumentTree, first⟩, exact⟩ := List.forall_mem_cons.1 exact
      rw [itemsText_cons, List.append_assoc] at same
      cases items with
      | nil => exact absurd same.symm (cons_ne_text argumentTree (by decide) (by decide))
      | cons item items =>
          obtain ⟨tree, trees⟩ := List.forall_mem_cons.1 trees
          rw [itemsText_cons, List.append_assoc] at same
          obtain ⟨alike, later⟩ := first tree (stops_othersText arguments rest)
            (stops_othersText items others) same
          obtain ⟨laterAlike, rests⟩ :=
            othersText_exact (fun argument member => (exact argument member).2) trees later
          exact ⟨by rw [argumentsAlike, alike, laterAlike, Bool.and_self], rests⟩

end Arguments

/-- A callee with argument lists after it, each with the place where it opens. -/
def applied (callee : Expr) (calls : List (Span × List Expr)) : Expr :=
  calls.foldl (fun callee call => .call ⟨.openParen, "(", call.1⟩ callee call.2) callee

/-- Argument lists as they stand after a callee. -/
def callsText (calls : List (Span × List Expr)) : List Char :=
  calls.flatMap fun call => '(' :: (itemsText call.2 ++ [')'])

theorem callsText_cons (call : Span × List Expr) (calls : List (Span × List Expr))
    (rest : List Char) :
    callsText (call :: calls) ++ rest =
      '(' :: (itemsText call.2 ++ ')' :: (callsText calls ++ rest)) := by
  simp [callsText]

theorem call_text (token : Token) (callee : Expr) (span : Span) (arguments : List Expr)
    (calls : List (Span × List Expr)) (rest : List Char) :
    (Expr.call token callee arguments).text.toList ++ (callsText calls ++ rest) =
      callee.text.toList ++ (callsText ((span, arguments) :: calls) ++ rest) := by
  rw [callsText_cons]
  simp [Expr.text, itemsText]

section Calls

variable {calls lists : List (Span × List Expr)} {rest others : List Char}

theorem Stops.delimits (stops : Stops rest) (calls : List (Span × List Expr)) :
    ∀ c ∈ (callsText calls ++ rest).head?, Delimits c := by
  cases calls with
  | nil =>
      have among : [' ', ')', ','] ⊆ [' ', '(', ')', ',', ';'] := by decide
      exact fun c member => .of_mem (among (stops c member))
  | cons call calls =>
      rw [callsText_cons]
      rintro c ⟨⟩
      exact .of_mem (by decide)

theorem Stops.ne_openParen (stops : Stops rest) : rest ≠ '(' :: others := by
  rintro rfl
  exact absurd (stops '(' rfl) (by decide)

/-- Argument lists can be told from their text. -/
theorem callsText_exact {callee other : Expr}
    (exact : ∀ call ∈ calls, ∀ argument ∈ call.2, OperatorTree argument ∧ Exact argument)
    (trees : ∀ list ∈ lists, ∀ item ∈ list.2, OperatorTree item)
    (alike : callee.alike other = true) (stops : Stops rest) (otherStops : Stops others)
    (same : callsText calls ++ rest = callsText lists ++ others) :
    (applied callee calls).alike (applied other lists) = true ∧ rest = others := by
  induction calls generalizing lists callee other with
  | nil =>
      cases lists with
      | nil => exact ⟨alike, same⟩
      | cons list lists =>
          rw [callsText_cons] at same
          exact absurd same stops.ne_openParen
  | cons call calls ih =>
      obtain ⟨first, exact⟩ := List.forall_mem_cons.1 exact
      rw [callsText_cons] at same
      cases lists with
      | nil => exact absurd same.symm otherStops.ne_openParen
      | cons list lists =>
          obtain ⟨items, trees⟩ := List.forall_mem_cons.1 trees
          rw [callsText_cons] at same
          obtain ⟨argumentsAlike, later⟩ := itemsText_exact first items (List.cons.inj same).2
          have extended : (Expr.call ⟨.openParen, "(", call.1⟩ callee call.2).alike
              (.call ⟨.openParen, "(", list.1⟩ other list.2) = true := by
            simp [Expr.alike, Token.alike, alike, argumentsAlike]
          obtain ⟨together, rests⟩ := ih exact trees extended later
          exact ⟨together, rests⟩

end Calls

/-- With whatever argument lists after it, a tree can be told from its text. -/
def Determined (tree : Expr) : Prop :=
  ∀ (calls lists : List (Span × List Expr)) {other : Expr} {rest others : List Char},
    (∀ call ∈ calls, ∀ argument ∈ call.2, OperatorTree argument ∧ Exact argument) →
    OperatorTree other → (∀ list ∈ lists, ∀ item ∈ list.2, OperatorTree item) →
    Stops rest → Stops others →
    tree.text.toList ++ (callsText calls ++ rest) =
      other.text.toList ++ (callsText lists ++ others) →
    (applied tree calls).alike (applied other lists) = true ∧ rest = others

namespace Determined

variable {tree callee : Expr} {arguments : List Expr} {span : Span}

theorem exact (determined : Determined tree) : Exact tree :=
  fun operators stops otherStops same =>
    determined [] [] (by simp) operators (by simp) stops otherStops same

theorem of_head (headExact : HeadExact tree) : Determined tree := by
  intro calls lists other rest others exact operators trees stops otherStops same
  have byHead : ∀ {head : Expr} {lists : List (Span × List Expr)}, Head head →
      (∀ list ∈ lists, ∀ item ∈ list.2, OperatorTree item) →
      tree.text.toList ++ (callsText calls ++ rest) =
        head.text.toList ++ (callsText lists ++ others) →
      (applied tree calls).alike (applied head lists) = Bool.true ∧ rest = others := by
    intro head lists isHead trees same
    obtain ⟨alike, later⟩ :=
      headExact isHead (stops.delimits calls) (otherStops.delimits lists) same
    exact callsText_exact exact trees alike stops otherStops later
  -- The callee of a call is compared with one more argument list after it.
  induction operators generalizing lists with
  | name isName => exact byHead (.word (.name isName)) trees same
  | integer isNumeral => exact byHead (.word (.integer isNumeral)) trees same
  | true => exact byHead (.word .trueWord) trees same
  | false => exact byHead (.word .falseWord) trees same
  | unary operates operand => exact byHead (.unary operates operand) trees same
  | binary operates left right => exact byHead (.binary operates left right) trees same
  | @call span callee arguments _ items ih =>
      rw [call_text _ _ span] at same
      exact ih ((span, arguments) :: lists) (List.forall_mem_cons.2 ⟨items, trees⟩) same

theorem call (determined : Determined callee)
    (exact : ∀ argument ∈ arguments, OperatorTree argument ∧ Exact argument) :
    Determined (.call ⟨.openParen, "(", span⟩ callee arguments) := by
  intro calls lists other rest others listsExact operators trees stops otherStops same
  rw [call_text _ _ span] at same
  exact determined ((span, arguments) :: calls) lists
    (List.forall_mem_cons.2 ⟨exact, listsExact⟩) operators trees stops otherStops same

end Determined

theorem OperatorTree.determined {tree : Expr} (operators : OperatorTree tree) :
    Determined tree := by
  induction operators with
  | name isName => exact .of_head (Atom.name isName).headExact
  | integer isNumeral => exact .of_head (Atom.integer isNumeral).headExact
  | true => exact .of_head Atom.trueWord.headExact
  | false => exact .of_head Atom.falseWord.headExact
  | unary operates _ ih => exact .of_head (unary_headExact operates ih.exact)
  | binary operates leftTree _ leftIH rightIH =>
      exact .of_head (binary_headExact operates leftTree leftIH.exact rightIH.exact)
  | call _ trees ih treesIH =>
      exact .call ih fun argument member => ⟨trees argument member, (treesIH argument member).exact⟩

/-- Trees that are alike have the same text, and the text of a tree of operators is that of no
tree but those like it. -/
theorem text_identifies :
    (∀ left right : Program, left.alike right = true → left.text = right.text) ∧
    (∀ left right : Block, left.alike right = true → left.text = right.text) ∧
    (∀ left right : Statement, left.alike right = true → left.text = right.text) ∧
    (∀ left right : Expr, left.alike right = true → left.text = right.text) ∧
    ∀ left right : Expr, OperatorTree left → OperatorTree right → left.text = right.text →
      left.alike right = true := by
  refine ⟨fun _ _ => Program.text_eq_of_alike, Block.text_eq_of_alike,
    Statement.text_eq_of_alike, Expr.text_eq_of_alike, fun left right leftTree rightTree same => ?_⟩
  have texts : left.text.toList ++ [] = right.text.toList ++ [] := by rw [same]
  exact (leftTree.determined.exact rightTree (by simp [Stops]) (by simp [Stops]) texts).1

theorem text_identifies_call :
    (Expr.call ⟨.openParen, "(", .between "shell" 1 2⟩
        (.identifier ⟨⟨.identifier, "f", .between "shell" 0 1⟩, "f"⟩)
        [.boolean ⟨.trueKeyword, "true", .between "shell" 2 6⟩ true]).alike
      (.call ⟨.openParen, "(", .between "file" 4 5⟩
        (.identifier ⟨⟨.identifier, "f", .between "file" 2 3⟩, "f"⟩)
        [.boolean ⟨.trueKeyword, "true", .between "file" 6 10⟩ true]) = true ∧
      (Program.mk [.result ⟨.returnKeyword, "return", .between "shell" 0 6⟩
        (.boolean ⟨.trueKeyword, "true", .between "shell" 7 11⟩ true)]).text =
      (Program.mk [.result ⟨.returnKeyword, "return", .between "file" 2 8⟩
        (.boolean ⟨.trueKeyword, "true", .between "file" 10 14⟩ true)]).text := by
  have isName : IsName "f" := ⟨by decide, List.all_eq_true.1 rfl, by decide⟩
  constructor
  · exact text_identifies.2.2.2.2 _ _ (.call (.name isName) (List.forall_mem_singleton.2 .true))
      (.call (.name isName) (List.forall_mem_singleton.2 .true)) rfl
  · exact text_identifies.1 _ _ (by decide)

end Monkey.Grammar
