import Monkey.Proofs.Grammar.RoundTrip
import Monkey.Proofs.Parser.Shallow

namespace Monkey.Grammar

/-! How deep trees can be.

A path leads further in no more often than levels may be open.  But an expression may go on as
often as one likes, with operators or with calls, and each time the path to where it began gets
longer by one edge.
-/

variable {level : Level} {edge : Edge} {text : String} {first : Char} {others : List Char}

/-- Tokens of an expression that goes on so many times, and with which nothing is wrong. -/
structure Chain (level : Level) (edge : Edge) (count : Nat) (tokens : List Token) : Prop where
  derived : ∃ tree nesting, Derives (.expression level) tokens tree nesting ∧ nesting ≤ 1 ∧
    ∃ last, (Node.expression tree).Path (List.replicate count edge) last
  sound : tokens.flatMap Token.excess = []

/-- A text with which an expression goes on. -/
def GoesOn (text : String) (level : Level) (edge : Edge) : Prop :=
  ∀ (file : String) (rest : List Char) (count : Nat), (∀ c ∈ rest.head?, Delimits c) →
    Lexes file (text.toList ++ rest) rest fun others =>
      ∀ tokens, Chain level edge count tokens → Chain level edge (count + 1) (tokens ++ others)

theorem isName_x : IsName "x" :=
  ⟨by decide, List.all_eq_true.1 rfl, by decide⟩

theorem goesOn_sum : GoesOn "+x" .sum .left := by
  intro file rest count delimited
  show Lexes file ("+".toList ++ ("x".toList ++ rest)) rest _
  have plus : (Kind.plus, "+") ∈ Kind.infixOperators := by decide
  refine .andThen ((Spells.infixOperator plus).lexes fun _ _ => trivial) ?_
  apply ((Spells.name isName_x).lexes fun c member => (delimited c member).1).mono
  rintro _ ⟨place, rfl⟩ _ ⟨span, rfl⟩ tokens ⟨⟨tree, nesting, derived, few, last, path⟩, sound⟩
  have operates : Kind.plus ∈ Level.sum.operators := by decide
  have right : Derives (.expression .product) [⟨.identifier, "x", place⟩] _ 0 :=
    (Derives.name rfl).loosen (by decide)
  have whole : Derives (.expression .sum) (tokens ++ [⟨.plus, "+", span⟩, _]) _ _ :=
    .binary rfl operates derived right
  refine ⟨⟨_, _, whole, by omega, last, .down (by simp [Node.children]) path⟩, ?_⟩
  simp [sound, Rereads.excess_of_ne]

theorem goesOn_call : GoesOn "()" .call .callee := by
  intro file rest count delimited
  show Lexes file ("(".toList ++ (")".toList ++ rest)) rest _
  refine .andThen (Spells.openParen.lexes fun _ _ => trivial) ?_
  apply (Spells.closeParen.lexes fun _ _ => trivial).mono
  rintro _ ⟨place, rfl⟩ _ ⟨span, rfl⟩ tokens ⟨⟨tree, nesting, derived, few, last, path⟩, sound⟩
  have whole : Derives (.expression .call)
      (tokens ++ [⟨.openParen, "(", span⟩, ⟨.closeParen, ")", place⟩]) _ _ :=
    .call derived rfl .noArguments rfl
  refine ⟨⟨_, _, whole, by omega, last, .down (by simp [Node.children]) path⟩, ?_⟩
  simp [sound, Rereads.excess_of_ne]

/-- A name, and then the same text as often as one likes. -/
def chain (text : String) (count : Nat) : List Char :=
  "x".toList ++ (List.replicate count text.toList).flatten

theorem chain_lexes (goesOn : GoesOn text level edge) (starts : text.toList = first :: others)
    (delimits : Delimits first) (file : String) (count : Nat) (rest : List Char)
    (delimited : ∀ c ∈ rest.head?, Delimits c) :
    Lexes file (chain text count ++ rest) rest (Chain level edge count) := by
  induction count generalizing rest with
  | zero =>
      apply ((Spells.name isName_x).lexes fun c member => (delimited c member).1).mono
      rintro _ ⟨span, rfl⟩
      have name : Derives (.expression level) [⟨.identifier, "x", span⟩] _ 0 :=
        (Derives.name rfl).loosen (by cases level <;> decide)
      exact ⟨⟨_, _, name, Nat.zero_le 1, _, .here⟩, by simp [Rereads.excess_of_ne]⟩
  | succ count ih =>
      -- The last text is taken off, since the tree of all that stands before it is on its left.
      have split : chain text (count + 1) ++ rest = chain text count ++ (text.toList ++ rest) := by
        simp [chain, List.replicate_succ']
      rw [split]
      refine .andThen (ih _ ?_) (goesOn file rest count delimited)
      rw [starts]
      rintro c ⟨⟩
      exact delimits

/-- However often an expression goes on, it is read, and nothing is wrong with it. -/
theorem parse_chain (goesOn : GoesOn text level edge) (starts : text.toList = first :: others)
    (delimits : Delimits first) (count : Nat) (file : Option String) :
    ReadAs (String.ofList (chain text count)) file (fun statement =>
      ∃ last, (Node.statement statement).Path (.value :: List.replicate count edge) last) [] := by
  apply ReadAs.of_lexes
  have lexes := chain_lexes goesOn starts delimits (file.getD Lexer.defaultFile) count [] (by simp)
  rw [List.append_nil] at lexes
  rw [String.toList_ofList]
  apply lexes.mono
  rintro tokens ⟨⟨tree, nesting, derivation, few, last, path⟩, sound⟩
  obtain ⟨_, whole⟩ := derivation.alone
  refine ⟨_, _, whole, ?_, ⟨last, .down (by simp [Node.children]) path⟩, by rw [sound]; rfl⟩
  exact Nat.le_trans (Nat.succ_le_succ few) (by decide)

end Monkey.Grammar

namespace Monkey

open Grammar

/-- Every node of a source stands at the end of a path.  No path leads further in more often than
levels may be open, and its length is bounded too, but for edges to what stands on the left of an
operator or is called.  Of these a path can have any number in a row, and nothing need be wrong
with the source. -/
theorem trees_shallow :
    (∀ source file, ∃ program after, parse source file = .ok program after ∧
      (∀ node ∈ program.nodes, ∃ edges, program.Path edges node) ∧
      ∀ edges node, program.Path edges node →
        edges.countP Edge.deepens ≤ nestingLimit ∧
        edges.length ≤ edges.countP Edge.continues + (2 * nestingLimit + 2)) ∧
    (∀ edge : Edge, edge.continues = true → ∀ count, ∃ source program after,
      parse source none = .ok program after ∧ after.diagnostics = #[] ∧
      ∃ node, program.Path (.statement :: .value :: List.replicate count edge) node) := by
  constructor
  · intro source file
    obtain ⟨program, count, found, parsed, _⟩ :=
      (parse_certain source file).succeeds (fun _ _ _ => id) id
    refine ⟨program, _, parsed, fun _ => Program.exists_path, ?_⟩
    rintro _ node ⟨statement, member, below, rfl, path⟩
    have within := Routine.programBody_yields (Routine.levels_shallow nestingLimit) _ _ _ parsed
      statement member _ _ path
    have length := path.length_le
    have slack : (Node.statement statement).slack = 1 := rfl
    rw [List.countP_cons, List.countP_cons, List.length_cons]
    simp only [Edge.deepens, Edge.continues, Bool.false_eq_true, if_false]
    omega
  · intro edge continues count
    have sum : "+x".toList = ['+', 'x'] := rfl
    have call : "()".toList = ['(', ')'] := rfl
    have chained : ∃ source, ReadAs source none (fun statement =>
        ∃ last, (Node.statement statement).Path (.value :: List.replicate count edge) last) [] := by
      cases edge with
      | left => exact ⟨_, parse_chain goesOn_sum sum ⟨rfl, rfl⟩ count none⟩
      | callee => exact ⟨_, parse_chain goesOn_call call ⟨rfl, rfl⟩ count none⟩
      | _ => cases continues
    obtain ⟨source, statement, after, parsed, ⟨last, path⟩, sound⟩ := chained
    refine ⟨source, _, after, parsed, ?_, last, statement, by simp, _, rfl, path⟩
    exact Array.toList_eq_nil_iff.1 (List.map_eq_nil_iff.1 sound)

/-- The argument of a call that is an operand, and a name that begins a thousand sums. -/
theorem trees_shallow_operand :
    (∃ program after node, parse "-f(1)" none = .ok program after ∧
      program.Path [.statement, .value, .operand, .argument] node ∧
      [Edge.statement, .value, .operand, .argument].countP Edge.deepens ≤ nestingLimit) ∧
    Edge.left.continues = true ∧
    ∃ source program after node, parse source none = .ok program after ∧
      program.Path (.statement :: .value :: List.replicate 1000 .left) node := by
  constructor
  · obtain ⟨program, after, parsed, _, bounds⟩ := trees_shallow.1 "-f(1)" none
    have nodes : ∃ statement ∈ (match parse "-f(1)" none with
          | .ok program _ => program.statements
          | _ => []),
        ∃ value ∈ (Node.statement statement).children, ∃ operand ∈ value.2.children,
          ∃ argument ∈ operand.2.children,
            [value.1, operand.1, argument.1] = [.value, .operand, .argument] := by
      decide +kernel
    rw [parsed] at nodes
    obtain ⟨statement, member, ⟨_, value⟩, first, ⟨_, operand⟩, second, ⟨_, argument⟩, third,
      edges⟩ := nodes
    cases edges
    have path : program.Path [.statement, .value, .operand, .argument] argument :=
      ⟨statement, member, _, rfl, .down first (.down second (.down third .here))⟩
    exact ⟨program, after, argument, parsed, path, (bounds _ _ path).1⟩
  · obtain ⟨source, program, after, parsed, _, node, path⟩ := trees_shallow.2 .left rfl 1000
    exact ⟨rfl, source, program, after, node, parsed, path⟩

end Monkey
