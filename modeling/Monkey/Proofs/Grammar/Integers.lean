import Mathlib.Data.List.Induction
import Mathlib.Data.Nat.Digits.Defs
import Monkey.Proofs.Grammar.NestingLimit
import Monkey.Proofs.Grammar.Soundness
import Monkey.Proofs.Token.Lexical
import Monkey.Proofs.Tree.Nodes

namespace Monkey

/-! Integers are exact or reported.

What is derived from tokens has a node for every integer among them, in their order, and the
value of a node is what the digits of its token stand for, unless that is too large.
-/

/-- What the text of a token stands for as a decimal number: the last digit counts once, the
one before it ten times, and so on. -/
def Token.magnitude (token : Token) : Nat :=
  Nat.ofDigits 10 (token.text.toList.reverse.map fun digit => digit.toNat - '0'.toNat)

theorem decimal_concat (digits : List Char) (digit : Char) :
    decimal (digits ++ [digit]) = 10 * decimal digits + (digit.toNat - '0'.toNat) :=
  List.foldl_append

/-- Digits that are read one after another stand for what their places say. -/
theorem decimal_eq_ofDigits (digits : List Char) :
    decimal digits =
      Nat.ofDigits 10 (digits.reverse.map fun digit => digit.toNat - '0'.toNat) := by
  induction digits using List.reverseRecOn with
  | nil => rfl
  | append_singleton digits digit ih =>
      rw [decimal_concat, ih, List.reverse_concat, List.map_cons, Nat.ofDigits_cons, Nat.add_comm]

namespace Token

variable {token : Token}

theorem integer?_eq : token.integer? =
    if token.magnitude ≤ 2 ^ 63 - 1 then some (token.magnitude : Int) else none := by
  rw [magnitude, ← decimal_eq_ofDigits]
  rfl

theorem integer?_getD : token.integer?.getD 0 =
    if token.magnitude ≤ 2 ^ 63 - 1 then (token.magnitude : Int) else 0 := by
  rw [integer?_eq]
  split <;> rfl

/-- What is recorded of tokens are the integers that are too large. -/
theorem flatMap_excess (tokens : List Token) :
    tokens.flatMap excess =
      (tokens.filter fun token => token.kind = .integer ∧ 2 ^ 63 - 1 < token.magnitude).map
        fun token => ⟨.integerOutOfRange token.text, token.span.start⟩ := by
  have large : ∀ token : Token, token.integer? = none ↔ 2 ^ 63 - 1 < token.magnitude := by
    intro token
    rw [integer?_eq]
    split <;> simp <;> omega
  induction tokens with
  | nil => rfl
  | cons token tokens ih =>
      rw [List.flatMap_cons, ih, excess, List.filter_cons]
      by_cases recorded : token.kind = .integer ∧ 2 ^ 63 - 1 < token.magnitude
      · simp only [large, recorded, and_self, decide_true, if_true]
        rfl
      · simp only [large, recorded, decide_false, if_false]
        rfl

/-- The integer that a token is by itself. -/
@[simp] def literal? (token : Token) : Option (Token × Int) :=
  if token.kind = .integer then some (token, token.integer?.getD 0) else none

end Token

/-- The token and the value of a node that is an integer. -/
@[simp] def Node.literal? : Node → Option (Token × Int)
  | .expression (.integer token value) => some (token, value)
  | _ => none

/-- The integers of a tree, in their order. -/
def Program.literals (program : Program) : List (Token × Int) :=
  program.nodes.filterMap Node.literal?

namespace Grammar

def Symbol.nodes : (symbol : Symbol) → symbol.Tree → List Node
  | .expression _, tree => tree.nodes
  | .items, trees | .arguments, trees => argumentsNodes trees
  | .block, tree => tree.nodes
  | .statement, tree => tree.nodes
  | .statements, trees => statementsNodes trees
  | .program, tree => Program.nodes tree

theorem Level.operators_ne_integer {level : Level} {kind : Kind}
    (operates : kind ∈ level.operators) : kind ≠ .integer := by
  rintro rfl
  cases level <;> revert operates <;> decide

theorem Names.literals {tokens : List Token} {names : List Identifier}
    (list : Names tokens names) : tokens.filterMap Token.literal? = [] := by
  induction list with
  | one isName => simp [isName]
  | more isName separates _ ih => simp [isName, separates, ih]

theorem Parameters.literals {tokens : List Token} {names : List Identifier}
    (allowed : Parameters tokens names) : tokens.filterMap Token.literal? = [] := by
  cases allowed with
  | none => rfl
  | some list => exact list.literals

/-- The integers of a tree are those among the tokens that it is derived from. -/
theorem Derives.literals {symbol : Symbol} {tokens : List Token} {tree : symbol.Tree}
    {nesting : Nat} (derivation : Derives symbol tokens tree nesting) :
    (symbol.nodes tree).filterMap Node.literal? = tokens.filterMap Token.literal? := by
  induction derivation with
  | tighter step operand ih => exact ih
  | binary step operates left right leftIH rightIH =>
      simp only [Symbol.nodes] at leftIH rightIH ⊢
      simp [List.filterMap_cons, Expr.nodes, Level.operators_ne_integer operates, leftIH, rightIH]
  | unary operates operand ih =>
      simp only [Symbol.nodes] at ih ⊢
      rcases operates with isNot | isDash
      · simp [List.filterMap_cons, Expr.nodes, isNot, ih]
      · simp [List.filterMap_cons, Expr.nodes, isDash, ih]
  | call callee opens arguments closes calleeIH argumentsIH =>
      simp only [Symbol.nodes] at calleeIH argumentsIH ⊢
      simp [List.filterMap_cons, Expr.nodes, opens, closes, calleeIH, argumentsIH]
  | name isName => simp [Symbol.nodes, Expr.nodes, isName]
  | integer isInteger => simp [Symbol.nodes, Expr.nodes, isInteger]
  | true isTrue => simp [Symbol.nodes, Expr.nodes, isTrue]
  | false isFalse => simp [Symbol.nodes, Expr.nodes, isFalse]
  | group opens value closes ih =>
      simp only [Symbol.nodes] at ih ⊢
      simp [opens, closes, ih]
  | conditional starts opens condition closes consequence conditionIH consequenceIH =>
      simp only [Symbol.nodes] at conditionIH consequenceIH ⊢
      simp [List.filterMap_cons, Expr.nodes, alternativeNodes, starts, opens, closes, conditionIH,
        consequenceIH]
  | alternative starts opens condition closes consequence otherwise alternative conditionIH
      consequenceIH alternativeIH =>
      simp only [Symbol.nodes] at conditionIH consequenceIH alternativeIH ⊢
      simp [List.filterMap_cons, Expr.nodes, alternativeNodes, starts, opens, closes, otherwise,
        conditionIH, consequenceIH, alternativeIH]
  | function starts opens parameters closes body ih =>
      simp only [Symbol.nodes] at ih ⊢
      simp [List.filterMap_cons, Expr.nodes, starts, opens, closes, parameters.literals, ih]
  | lastItem value ih =>
      simp only [Symbol.nodes] at ih ⊢
      simp [argumentsNodes, ih]
  | item value separates others valueIH othersIH =>
      simp only [Symbol.nodes] at valueIH othersIH ⊢
      simp [argumentsNodes, separates, valueIH, othersIH]
  | noArguments => rfl
  | someArguments items ih => exact ih
  | block opens body closes ih =>
      simp only [Symbol.nodes] at ih ⊢
      simp [List.filterMap_cons, Block.nodes, opens, closes, ih]
  | binding starts isName binds value ih =>
      simp only [Symbol.nodes] at ih ⊢
      simp [List.filterMap_cons, Statement.nodes, starts, isName, binds, ih]
  | result starts value ih =>
      simp only [Symbol.nodes] at ih ⊢
      simp [List.filterMap_cons, Statement.nodes, starts, ih]
  | expression value ih =>
      simp only [Symbol.nodes] at ih ⊢
      simp [List.filterMap_cons, Statement.nodes, ih]
  | noStatements => rfl
  | closed statement closes others statementIH othersIH =>
      simp only [Symbol.nodes] at statementIH othersIH ⊢
      simp [statementsNodes, closes, statementIH, othersIH]
  | unclosed statement separate others statementIH othersIH =>
      simp only [Symbol.nodes] at statementIH othersIH ⊢
      simp [statementsNodes, statementIH, othersIH]
  | program body finishes ih =>
      simp only [Symbol.nodes] at ih ⊢
      simp [Program.nodes, finishes, ih]

/-- If nothing is wrong with a source but the size of integers, the program is derived from its
tokens, and what is recorded is what is to be recorded of each of them. -/
theorem derives_of_clean {source : String} {file : Option String} {program : Program}
    {after : Parser} (parsed : parse source file = .ok program after)
    (clean : Clean after.diagnostics.toList) :
    derived .program program (tokenize source file) ∧
      after.diagnostics.toList = (tokenize source file).flatMap Token.excess := by
  have standard := Parser.ofSource_standard source file
  have met := (parse_certain source file).and
    (Sound.programBody (Sound.levels _) (Routine.levels_proper _) standard)
  have derivation : derived .program program (tokenize source file) := by
    rw [parsed] at met
    cases met with
    | @ok _ count found kept =>
        have foundClean : Clean found :=
          fun diagnostic member => clean diagnostic (by simp [member])
        obtain ⟨⟨_, derivation⟩, finished⟩ := kept.2 foundClean
        rw [standard.taken_of_finished finished] at derivation
        rw [Parser.tokenize_eq]
        exact ⟨_, .program derivation standard.finish⟩
  refine ⟨derivation, ?_⟩
  obtain ⟨nesting, derivation⟩ := derivation
  by_cases fits : nesting ≤ nestingLimit
  · obtain ⟨_, again, recorded⟩ := derivation.parse_eq fits
    cases parsed.symm.trans again
    exact recorded
  · have exceeded := derivation.parse_exceeds (Nat.lt_of_not_le fits)
    rw [parsed] at exceeded
    cases exceeded with
    | @ok _ count found overflows =>
        have foundClean : Clean found :=
          fun diagnostic member => clean diagnostic (by simp [member])
        exact absurd foundClean (Overflows.not_clean overflows)

end Grammar

open Grammar

theorem IsLexeme.isNumeral {text : String} {next : Option Char}
    (isLexeme : IsLexeme .integer text next) : IsNumeral text := by
  cases isLexeme with
  | numeral isNumeral => exact isNumeral
  | keyword reserved => simp [Kind.keywords] at reserved
  | mark own => simp [Kind.marks] at own

/-- The integers among the tokens of a source are written in digits. -/
theorem tokenize_numeral {source : String} {file : Option String} {token : Token}
    (member : token ∈ tokenize source file) (isInteger : token.kind = .integer) :
    IsNumeral token.text := by
  rcases List.mem_append.1 member with scanned | finish
  · obtain ⟨rest, isLexeme⟩ := (Covers.scan _ _ _).isLexeme token scanned
    rw [isInteger] at isLexeme
    exact isLexeme.isNumeral
  · rw [List.mem_singleton.1 finish] at isInteger
    cases isInteger

theorem map_fst_literals (tokens : List Token) :
    (tokens.filterMap Token.literal?).map Prod.fst = tokens.filter (·.kind = .integer) := by
  induction tokens with
  | nil => rfl
  | cons token tokens ih =>
      by_cases isInteger : token.kind = .integer
      · simp [isInteger, ih]
      · simp [isInteger, ih]

/-- If nothing is wrong with a source but the size of integers, then what is recorded are the
integers that are too large, each once and in their order.  The program has a node for every
integer of the source, in their order too, whose value is what its digits stand for, or zero if
that is too large. -/
theorem integers_exact (source : String) (file : Option String) :
    ∃ program after, parse source file = .ok program after ∧
      ((∀ diagnostic ∈ after.diagnostics, diagnostic.IsOutOfRange) →
        after.diagnostics.toList =
          ((tokenize source file).filter fun token =>
            token.kind = .integer ∧ 2 ^ 63 - 1 < token.magnitude).map
              (fun token => ⟨.integerOutOfRange token.text, token.span.start⟩) ∧
        program.literals.map Prod.fst =
          (tokenize source file).filter (·.kind = .integer) ∧
        ∀ token value, .expression (.integer token value) ∈ program.nodes →
          IsNumeral token.text ∧
            value = if token.magnitude ≤ 2 ^ 63 - 1 then (token.magnitude : Int) else 0) := by
  obtain ⟨program, count, found, parsed, _⟩ :=
    (parse_certain source file).succeeds (fun _ _ _ => id) id
  refine ⟨program, _, parsed, fun clean => ?_⟩
  obtain ⟨⟨nesting, derivation⟩, recorded⟩ :=
    derives_of_clean parsed fun diagnostic member => clean diagnostic (Array.mem_def.2 member)
  have literals : program.literals = (tokenize source file).filterMap Token.literal? :=
    derivation.literals
  refine ⟨recorded.trans (Token.flatMap_excess _), ?_, fun token value node => ?_⟩
  · rw [literals, map_fst_literals]
  · have listed : (token, value) ∈ program.literals := List.mem_filterMap.2 ⟨_, node, rfl⟩
    rw [literals] at listed
    obtain ⟨other, member, literal⟩ := List.mem_filterMap.1 listed
    unfold Token.literal? at literal
    split at literal
    · rename_i isInteger
      cases literal
      exact ⟨tokenize_numeral member isInteger, Token.integer?_getD⟩
    · cases literal

theorem integers_exact_sum :
    ∃ program after, parse "007 + 9223372036854775808" none = .ok program after ∧
      after.diagnostics.toList =
        [⟨.integerOutOfRange "9223372036854775808", ⟨6, "shell"⟩⟩] ∧
      program.literals.map Prod.fst =
        [⟨.integer, "007", .between "shell" 0 3⟩,
          ⟨.integer, "9223372036854775808", .between "shell" 6 25⟩] := by
  obtain ⟨program, after, parsed, exact⟩ := integers_exact "007 + 9223372036854775808" none
  have clean : (match parse "007 + 9223372036854775808" none with
      | .ok _ after => after.diagnostics.all fun diagnostic =>
          diagnostic.cause = .integerOutOfRange "9223372036854775808"
      | _ => false) = true := by decide +kernel
  rw [parsed] at clean
  obtain ⟨recorded, listed, _⟩ := exact fun diagnostic member =>
    ⟨_, of_decide_eq_true (Array.all_eq_true_iff_forall_mem.1 clean diagnostic member)⟩
  exact ⟨program, after, parsed, recorded.trans (by decide +kernel),
    listed.trans (by decide +kernel)⟩

end Monkey
