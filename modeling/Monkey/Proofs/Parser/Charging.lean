import Monkey.Proofs.Parser.Consumption
import Monkey.Proofs.Tree.Count

namespace Monkey

/-! Every token pays for one thing at most.

A token pays for a statement, for a failure, or for being an integer that is too large.
What a routine consumes pays for all that it finds wrong, and what is left over pays for the
value.  An expression leaves the price of the statement that it may become; a failure that
consumes nothing is paid by the token that is dropped after it.
-/

namespace Diagnostic

instance (diagnostic : Diagnostic) : Decidable diagnostic.IsOutOfRange :=
  match same : diagnostic.cause with
  | .integerOutOfRange text => isTrue ⟨text, same⟩
  | .expectedToken .. => isFalse fun ⟨_, other⟩ => by cases same.symm.trans other
  | .noExpression .. => isFalse fun ⟨_, other⟩ => by cases same.symm.trans other
  | .nestedTooDeep _ => isFalse fun ⟨_, other⟩ => by cases same.symm.trans other

end Diagnostic

/-- What a statement and an integer that is too large cost.  Both can be read from one token,
which must pay for both. -/
structure Tariff where
  statement : Nat
  integer : Nat
  fair : statement + integer ≤ 1

namespace Tariff

variable {tariff : Tariff} {found others : List Diagnostic}

def price (tariff : Tariff) (diagnostic : Diagnostic) : Nat :=
  if diagnostic.IsOutOfRange then tariff.integer else 1

theorem price_le_one (diagnostic : Diagnostic) : tariff.price diagnostic ≤ 1 := by
  have fair := tariff.fair
  unfold price
  split <;> omega

def cost (tariff : Tariff) (found : List Diagnostic) : Nat :=
  (found.map tariff.price).sum

@[simp] theorem cost_nil : tariff.cost [] = 0 := rfl

@[simp] theorem cost_singleton {diagnostic : Diagnostic} :
    tariff.cost [diagnostic] = tariff.price diagnostic := by
  simp [cost]

@[simp] theorem cost_append :
    tariff.cost (found ++ others) = tariff.cost found + tariff.cost others := by
  simp [cost]

/-- All but the integers that are too large cost one token each. -/
theorem cost_eq : tariff.cost found =
    found.countP (¬ ·.IsOutOfRange) + tariff.integer * found.countP (·.IsOutOfRange) := by
  induction found with
  | nil => rfl
  | cons diagnostic found ih =>
      rw [← List.singleton_append, cost_append, cost_singleton, ih, price]
      by_cases large : diagnostic.IsOutOfRange
      · simp [large, Nat.mul_add]
        omega
      · simp [large]
        omega

theorem cost_excess (token : Token) : tariff.cost token.excess ≤ tariff.integer := by
  unfold Token.excess
  split
  · exact Nat.le_of_eq (cost_singleton.trans (if_pos ⟨_, rfl⟩))
  · exact Nat.zero_le _

/-- What so many statements cost. -/
def worth (tariff : Tariff) (count : Nat) : Nat :=
  tariff.statement * count

@[simp] theorem worth_zero : tariff.worth 0 = 0 := rfl

@[simp] theorem worth_one : tariff.worth 1 = tariff.statement := Nat.mul_one _

@[simp] theorem worth_add {first second : Nat} :
    tariff.worth (first + second) = tariff.worth first + tariff.worth second :=
  Nat.mul_add ..

/-- The counts of a list are worth as much as their sum. -/
theorem worth_sum (counts : List Nat) :
    tariff.worth counts.sum = (counts.map tariff.worth).sum := by
  induction counts with
  | nil => rfl
  | cons count counts ih => rw [List.sum_cons, worth_add, ih, List.map_cons, List.sum_cons]

/-- What an expression leaves: the price of the statements inside it and of the one that it may
become. -/
def expression (tariff : Tariff) (value : Expr) : Nat :=
  tariff.worth (value.statementCount + 1)

theorem statement_le_one : tariff.statement ≤ 1 :=
  Nat.le_trans (Nat.le_add_right _ _) tariff.fair

end Tariff

namespace Contract

variable {α : Type}

/-- What is consumed and the credit from before pay for what is found wrong, and for the value or
the failure.  A failure need not be paid for if all of it costs no more than is granted. -/
def settles (tariff : Tariff) (credit grant : Nat) (worth : α → Nat) : Contract α where
  ok value count found := tariff.cost found + worth value ≤ credit + count
  failed _ count found := tariff.cost found + 1 ≤ max grant (credit + count)
  endless := True

end Contract

namespace Routine

open Outcome

variable {α β : Type}

def Settles (tariff : Tariff) (credit grant : Nat) (routine : Routine α) (worth : α → Nat) :
    Prop :=
  ∀ parser : Parser, (routine parser).Meets parser (.settles tariff credit grant worth)

/-- What is consumed pays for all.  A failure that comes at once is granted: the token at which it
comes will pay for it. -/
def Pays (tariff : Tariff) (routine : Routine α) (worth : α → Nat) : Prop :=
  Settles tariff 0 1 routine worth

/-- What is consumed and the credit pay for all. -/
def Spends (tariff : Tariff) (credit : Nat) (routine : Routine α) (worth : α → Nat) : Prop :=
  Settles tariff credit 0 routine worth

variable {tariff : Tariff} {routine : Routine α} {next : α → Routine β} {first : α → Nat}
  {worth : β → Nat} {credit grant : Nat}

namespace Settles

theorem mono {less : α → Nat} (settles : Settles tariff credit grant routine first)
    (le : ∀ value, less value ≤ first value) : Settles tariff credit grant routine less := by
  intro parser
  refine (settles parser).mono ?_ (fun _ _ _ kept => kept) id
  intro value count found kept
  exact Nat.le_trans (Nat.add_le_add_left (le value) _) kept

theorem bind (settles : Settles tariff credit grant routine first)
    (continues : ∀ value, Spends tariff (first value) (next value) worth) :
    Settles tariff credit grant (routine >>= next) worth := by
  intro parser
  refine (settles parser).bind (fun _ _ _ kept => kept) id ?_
  intro value count found kept
  refine (continues value _).mono ?_ ?_ id
  · intro result more others later
    simp only [Contract.settles, Contract.rest, Tariff.cost_append] at *
    omega
  · intro diagnostic more others later
    simp only [Contract.settles, Contract.rest, Tariff.cost_append] at *
    omega

/-- What a routine does may depend on the parser. -/
theorem state {next : Parser → Routine β}
    (continues : ∀ parser, Settles tariff credit grant (next parser) worth) :
    Settles tariff credit grant (Routine.state >>= next) worth :=
  fun parser => continues parser parser

theorem pure {value : α} (le : first value ≤ credit) :
    Settles tariff credit grant (Pure.pure value) first :=
  fun _ => .pure (by simpa [Contract.settles] using le)

theorem advance : Settles tariff credit grant Routine.advance fun _ => credit + 1 :=
  fun _ => .advance (by simp [Contract.settles])

theorem skip {kind : Kind} : Settles tariff credit grant (Routine.skip kind) fun _ => credit :=
  fun _ => .skip (fun _ => by simp [Contract.settles]) fun _ => by simp [Contract.settles]

end Settles

namespace Pays

/-- What is left before is still there after. -/
theorem spends (pays : Pays tariff routine first) (positive : 1 ≤ credit) :
    Spends tariff credit routine fun value => credit + first value := by
  intro parser
  refine (pays parser).mono ?_ ?_ id
  · intro value count found kept
    simp only [Contract.settles] at *
    omega
  · intro diagnostic count found kept
    simp only [Contract.settles] at *
    omega

theorem fail {cause : Cause} : Pays tariff (Routine.fail cause : Routine α) first :=
  fun _ => .fail (by simp [Contract.settles])

theorem expect {kind : Kind} : Pays tariff (Routine.expect kind) fun _ => 1 :=
  fun _ => .expect (fun _ => by simp [Contract.settles]) fun _ => by simp [Contract.settles]

theorem nested (pays : Pays tariff routine first) : Pays tariff (Routine.nested routine) first := by
  intro parser
  refine .nested (fun _ => by simp [Contract.settles]) fun _ => ?_
  exact pays _

end Pays

namespace Spends

/-- What a loop has left before each round. -/
def roundWorth (again : α → Nat) (done : β → Nat) : Round α β → Nat
  | .again next => again next
  | .done result => done result

theorem iterate {round : α → Routine (Round α β)} (left : α → Nat)
    (each : ∀ value, Spends tariff (left value) (round value) (roundWorth left worth))
    {start : α} : Spends tariff (left start) (Routine.iterate round start) worth := by
  intro parser
  refine .iterate (fun value count found => tariff.cost found + left value ≤ left start + count)
    ?_ (by simp)
  intro value count found held
  refine (each value _).mono ?_ ?_ id
  · intro decision more others later
    cases decision with
    | again next =>
        refine ⟨.inr trivial, fun _ => ?_⟩
        simp only [Contract.settles, roundWorth, Tariff.cost_append] at *
        omega
    | done result =>
        simp only [Contract.settles, roundWorth, Tariff.cost_append] at *
        omega
  · intro diagnostic more others later
    simp only [Contract.settles, Tariff.cost_append] at *
    omega

end Spends

/-- A statement that fails is paid for by its own tokens, or by the one that is dropped. -/
theorem Pays.recovering {statement : Routine Statement} {value : Statement → Nat}
    (pays : Pays tariff statement value) :
    Spends tariff credit (Routine.recovering statement) fun result =>
      credit + result.elim 0 value := by
  intro parser
  refine (pays parser).recovering ?_ ?_ id
  · intro statement count found kept
    simp only [Contract.settles, Option.elim_some] at *
    omega
  · intro diagnostic count found kept
    have price := tariff.price_le_one diagnostic
    have least := @Parser.resumed_pos parser count
    have gone := @Parser.le_resumed parser count
    simp only [Contract.settles, Tariff.cost_append, Tariff.cost_singleton,
      Option.elim_none] at *
    omega

section Items

variable {item : Routine α}

theorem Spends.separated (value : α → Nat) (positive : 1 ≤ credit)
    (spends : ∀ {credit : Nat}, 1 ≤ credit →
      Spends tariff credit item fun result => credit + value result) :
    Spends tariff credit (separated item) fun results => credit + (results.map value).sum := by
  show Spends tariff (credit + ((#[] : Array α).toList.map value).sum) _ _
  refine Spends.iterate (fun items : Array α => credit + (items.toList.map value).sum)
    fun items => ?_
  refine (spends (Nat.le_add_right_of_le positive)).bind fun result => ?_
  refine Settles.skip.bind fun skipped => ?_
  split
  · exact Settles.pure (by simp [Spends.roundWorth, Nat.add_assoc])
  · exact Settles.pure (by simp [Spends.roundWorth, Nat.add_assoc])

theorem Spends.enclosed (value : α → Nat) (positive : 1 ≤ credit)
    (spends : ∀ {credit : Nat}, 1 ≤ credit →
      Spends tariff credit item fun result => credit + value result) :
    Spends tariff credit (enclosed item) fun results => credit + (results.map value).sum := by
  refine Settles.skip.bind fun skipped => ?_
  split
  · exact Settles.pure (by simp)
  · refine (Spends.separated value positive spends).bind fun results => ?_
    refine (Pays.expect.spends (Nat.le_add_right_of_le positive)).bind fun _ => ?_
    exact Settles.pure (by omega)

theorem Pays.statementsUntil {ends : Kind → Bool} {statement : Routine Statement}
    {value : Statement → Nat} (pays : Pays tariff statement value) :
    Spends tariff credit (statementsUntil ends statement) fun results =>
      credit + (results.map value).sum := by
  show Spends tariff (credit + ((#[] : Array Statement).toList.map value).sum) _ _
  refine Spends.iterate (fun statements : Array Statement =>
    credit + (statements.toList.map value).sum) fun statements => ?_
  refine Settles.state fun parser => ?_
  split
  · exact Settles.pure (Nat.le_refl _)
  · refine pays.recovering.bind fun result => ?_
    split
    · exact Settles.pure (by simp [Spends.roundWorth, Nat.add_assoc])
    · exact Settles.pure (by simp [Spends.roundWorth])

end Items

theorem identifier_spends (positive : 1 ≤ credit) :
    Spends tariff credit identifier fun _ => credit :=
  (Pays.expect.spends positive).bind fun _ => Settles.pure (Nat.le_add_right ..)

end Routine

/-- What stands one level further in pays for itself, and an expression also for the statement
that it may become. -/
structure Nested.Pays (tariff : Tariff) (inner : Nested) : Prop where
  expression : ∀ power, Routine.Pays tariff (inner.expression power) tariff.expression
  block : Routine.Pays tariff inner.block fun block => tariff.worth block.statementCount

namespace Routine

variable {tariff : Tariff} {inner : Nested} {credit : Nat}

theorem atom_pays : Pays tariff atom tariff.expression := by
  intro parser
  rw [atom_apply]
  have plain : tariff.expression (.ofToken parser.current) = tariff.statement := by
    unfold Expr.ofToken
    split <;> exact Tariff.worth_one
  have excess := tariff.cost_excess parser.current
  have fair := tariff.fair
  refine .ok ?_
  simp only [Contract.settles, plain]
  omega

theorem unary_pays (pays : inner.Pays tariff) :
    Pays tariff (unary inner) tariff.expression := by
  refine Settles.advance.bind fun token => ?_
  refine ((pays.expression _).spends (Nat.le_refl 1)).bind fun operand => ?_
  exact Settles.pure (Nat.le_add_left ..)

theorem group_pays (pays : inner.Pays tariff) :
    Pays tariff (group inner) tariff.expression := by
  refine Settles.advance.bind fun _ => ?_
  refine ((pays.expression _).spends (Nat.le_refl 1)).bind fun value => ?_
  refine (Pays.expect.spends (Nat.le_add_right ..)).bind fun _ => ?_
  exact Settles.pure (by omega)

theorem conditional_pays (pays : inner.Pays tariff) :
    Pays tariff (conditional inner) tariff.expression := by
  refine Settles.advance.bind fun token => ?_
  refine (Pays.expect.spends (Nat.le_refl 1)).bind fun _ => ?_
  refine ((pays.expression _).spends (Nat.le_add_right ..)).bind fun condition => ?_
  refine (Pays.expect.spends (by omega)).bind fun _ => ?_
  refine (pays.block.spends (by omega)).bind fun consequence => ?_
  refine Settles.skip.bind fun skipped => ?_
  split
  · refine (pays.block.spends (by omega)).bind fun alternative => ?_
    refine Settles.pure ?_
    simp only [Tariff.expression, Expr.statementCount, alternativeCount, Tariff.worth_add]
    omega
  · refine Settles.pure ?_
    simp only [Tariff.expression, Expr.statementCount, alternativeCount, Tariff.worth_add,
      Tariff.worth_zero]
    omega

theorem function_pays (pays : inner.Pays tariff) :
    Pays tariff (function inner) tariff.expression := by
  have least := tariff.statement_le_one
  refine Settles.advance.bind fun token => ?_
  refine (Pays.expect.spends (Nat.le_refl 1)).bind fun _ => ?_
  refine (Spends.enclosed (fun _ => 0) (by omega) identifier_spends).bind fun parameters => ?_
  refine (pays.block.spends (by omega)).bind fun body => ?_
  refine Settles.pure ?_
  simp only [Tariff.expression, Expr.statementCount, Tariff.worth_add, Tariff.worth_one]
  omega

theorem binary_spends {left : Expr} {power : Power} (pays : inner.Pays tariff) :
    Spends tariff (tariff.expression left) (binary inner left power) tariff.expression := by
  refine Settles.advance.bind fun token => ?_
  refine ((pays.expression _).spends (Nat.le_add_left ..)).bind fun right => ?_
  refine Settles.pure ?_
  simp only [Tariff.expression, Expr.statementCount, Tariff.worth_add]
  omega

theorem call_spends {callee : Expr} (pays : inner.Pays tariff) :
    Spends tariff (tariff.expression callee) (call inner callee) tariff.expression := by
  refine Settles.advance.bind fun token => ?_
  refine (Spends.enclosed (fun argument => tariff.worth argument.statementCount)
    (Nat.le_add_left ..) fun positive => ?_).bind fun arguments => ?_
  · refine ((pays.expression _).spends positive).mono fun argument => ?_
    simp only [Tariff.expression, Tariff.worth_add]
    omega
  · refine Settles.pure ?_
    have sum := tariff.worth_sum (arguments.map (·.statementCount))
    rw [← argumentsCount_eq_sum, List.map_map] at sum
    simp only [Tariff.expression, Expr.statementCount, Tariff.worth_add, sum, Function.comp_def]
    omega

theorem prefixForm_pays (form : PrefixForm) (pays : inner.Pays tariff) :
    Pays tariff (form.read inner) tariff.expression := by
  cases form with
  | atom => exact atom_pays
  | unary => exact unary_pays pays
  | group => exact group_pays pays
  | conditional => exact conditional_pays pays
  | function => exact function_pays pays

theorem infixForm_spends (form : InfixForm) {left : Expr} {power : Power}
    (pays : inner.Pays tariff) :
    Spends tariff (tariff.expression left) (form.read inner left power) tariff.expression := by
  cases form with
  | binary => exact binary_spends pays
  | call => exact call_spends pays

theorem leading_pays (pays : inner.Pays tariff) :
    Pays tariff (leading inner) tariff.expression := by
  refine Settles.state fun parser => ?_
  split
  · exact Pays.fail
  · exact prefixForm_pays _ pays

theorem continued_spends {power : Power} {left : Expr} (pays : inner.Pays tariff) :
    Spends tariff (tariff.expression left) (continued inner power left)
      (Spends.roundWorth tariff.expression tariff.expression) := by
  refine Settles.state fun parser => ?_
  split
  · exact Settles.pure (Nat.le_refl _)
  · split
    · exact (infixForm_spends _ pays).bind fun extended => Settles.pure (Nat.le_refl _)
    · exact Settles.pure (Nat.le_refl _)

theorem expressionBody_pays {power : Power} (pays : inner.Pays tariff) :
    Pays tariff (expressionBody inner power) tariff.expression :=
  (leading_pays pays).bind fun _ =>
    Spends.iterate tariff.expression fun _ => continued_spends pays

theorem ending_pays (pays : inner.Pays tariff) :
    Pays tariff (ending inner) tariff.expression :=
  (pays.expression _).bind fun _ => Settles.skip.bind fun _ => Settles.pure (Nat.le_refl _)

theorem statementForm_pays (form : StatementForm) (pays : inner.Pays tariff) :
    Pays tariff (form.read inner) fun statement => tariff.worth statement.statementCount := by
  cases form with
  | binding =>
      refine Settles.advance.bind fun token => ?_
      refine (identifier_spends (Nat.le_refl 1)).bind fun name => ?_
      refine (Pays.expect.spends (Nat.le_refl 1)).bind fun _ => ?_
      refine ((ending_pays pays).spends (Nat.le_add_left ..)).bind fun value => ?_
      exact Settles.pure (Nat.le_add_left ..)
  | result =>
      refine Settles.advance.bind fun token => ?_
      refine ((ending_pays pays).spends (Nat.le_refl 1)).bind fun value => ?_
      exact Settles.pure (Nat.le_add_left ..)
  | expression =>
      refine Settles.state fun parser => ?_
      exact (ending_pays pays).bind fun value => Settles.pure (Nat.le_refl _)

theorem statementBody_pays (pays : inner.Pays tariff) :
    Pays tariff (statementBody inner) fun statement => tariff.worth statement.statementCount := by
  refine Settles.state fun parser => ?_
  split
  · exact statementForm_pays _ pays
  · exact statementForm_pays .expression pays

theorem statements_spend {ends : Kind → Bool} (pays : inner.Pays tariff) :
    Spends tariff credit (statementsUntil ends (statementBody inner)) fun statements =>
      credit + tariff.worth (statementsCount statements) := by
  refine (statementBody_pays pays).statementsUntil.mono fun statements => ?_
  rw [statementsCount_eq_sum, Tariff.worth_sum, List.map_map]
  exact Nat.le_refl _

theorem blockBody_pays (pays : inner.Pays tariff) :
    Pays tariff (blockBody inner) fun block => tariff.worth block.statementCount := by
  refine Pays.expect.bind fun token => ?_
  refine (statements_spend pays).bind fun statements => ?_
  refine (Pays.expect.spends (Nat.le_add_right ..)).bind fun _ => ?_
  refine Settles.pure ?_
  simp only [Block.statementCount]
  omega

theorem levels_pays (count : Nat) : (levels count).Pays tariff := by
  induction count with
  | zero => exact ⟨fun _ => .fail, .fail⟩
  | succ count ih => exact ⟨fun _ => (expressionBody_pays ih).nested, (blockBody_pays ih).nested⟩

theorem program_spends :
    Spends tariff 0 program fun program => tariff.worth program.statementCount := by
  intro parser
  refine Settles.bind (statements_spend (levels_pays _)) (fun statements => ?_) parser
  exact Settles.pure (Nat.le_of_eq (Nat.zero_add _).symm)

end Routine

/-- The tokens of a source pay for all that is wrong and for all statements. -/
theorem parse_paid (tariff : Tariff) (source : String) (file : Option String) :
    ∃ program after, parse source file = .ok program after ∧
      tariff.cost after.diagnostics.toList + tariff.worth program.statementCount ≤
        (tokenize source file).countP (·.kind ≠ .endOfInput) := by
  have spent := @Routine.program_spends tariff (.ofSource source file)
  obtain ⟨program, count, found, parsed, ⟨inside, _⟩, paid⟩ :=
    ((parse_certain source file).and spent).succeeds (fun _ _ _ kept => kept.1)
      fun kept => kept.1
  refine ⟨program, _, parsed, ?_⟩
  rw [← Parser.length_pending_ofSource, Parser.beyond_diagnostics]
  refine Nat.le_trans paid ?_
  rw [Nat.zero_add]
  exact inside

/-- However much is wrong with a source, no more is found wrong than it has tokens; and the
statements that are read, with what is found wrong but for integers that are too large, are no
more than the tokens. -/
theorem statements_and_diagnostics_le (source : String) (file : Option String) :
    ∃ program after, parse source file = .ok program after ∧
      after.diagnostics.size ≤ (tokenize source file).countP (·.kind ≠ .endOfInput) ∧
      program.statementCount + after.diagnostics.countP (¬ ·.IsOutOfRange) ≤
        (tokenize source file).countP (·.kind ≠ .endOfInput) := by
  obtain ⟨program, after, parsed, all⟩ := parse_paid ⟨0, 1, by decide⟩ source file
  obtain ⟨_, _, same, most⟩ := parse_paid ⟨1, 0, by decide⟩ source file
  rw [parsed] at same
  cases same
  refine ⟨program, after, parsed, ?_, ?_⟩
  · rw [Tariff.cost_eq, Nat.one_mul] at all
    have size := after.diagnostics.toList.length_eq_countP_add_countP (decide ·.IsOutOfRange)
    simp only [decide_eq_true_eq, Array.length_toList] at size
    omega
  · rw [Tariff.cost_eq, Nat.zero_mul, Array.countP_toList] at most
    simpa [Tariff.worth, Nat.add_comm] using most

end Monkey
