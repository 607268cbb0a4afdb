import Monkey.Proofs.Grammar.Derivation

namespace Monkey.Grammar

/-! How binding powers are tied to levels.

What is read at a power is made of operators that bind tighter, and an expression of some
level is complete once the next token does not bind tighter than the operators of that
level.
-/

namespace Level

/-- The level of what is read at a power. -/
def above : Power → Level
  | .lowest => .equality
  | .equality => .comparison
  | .comparison => .sum
  | .sum => .product
  | .product | .unary => .unary
  | .call => .primary

/-- The greatest power with which an expression of the level can be continued. -/
def bound : Level → Power
  | .equality => .equality
  | .comparison => .comparison
  | .sum => .sum
  | .product => .product
  | .unary => .unary
  | .call | .primary => .call

theorem bound_le_of_rank_le {loose tight : Level} (order : loose.rank ≤ tight.rank) :
    loose.bound ≤ tight.bound := by
  cases loose <;> cases tight <;> simp_all [rank, bound, Power.le_iff, Power.rank]

theorem of_binary {kind : Kind} {power : Power}
    (rule : Table.standard.infixRule kind = some ⟨power, .binary⟩) :
    ∃ level : Level, kind ∈ level.operators ∧ level.next? = some (above power) ∧
      level.bound = power ∧ power < .unary := by
  cases kind <;> simp [Table.standard] at rule <;> subst power
  case equals | notEquals => exact ⟨.equality, by decide⟩
  case less | greater => exact ⟨.comparison, by decide⟩
  case plus | dash => exact ⟨.sum, by decide⟩
  case star | slash => exact ⟨.product, by decide⟩

theorem of_call {kind : Kind} {power : Power}
    (rule : Table.standard.infixRule kind = some ⟨power, .call⟩) :
    kind = .openParen ∧ power = .call := by
  cases kind <;> simp_all [Table.standard]

/-- An expression that is complete before an operator can become its left operand. -/
theorem rank_le_of_bound {level tight : Level} {power : Power} (binary : level.bound = power)
    (loose : power < .unary) (complete : power ≤ tight.bound) : level.rank ≤ tight.rank := by
  subst power
  cases level <;> cases tight <;> simp_all [bound, rank, Power.le_iff, Power.lt_iff, Power.rank]

theorem call_rank_le {tight : Level} (complete : .call ≤ tight.bound) :
    Level.call.rank ≤ tight.rank := by
  cases tight <;> simp_all [bound, rank, Power.le_iff, Power.rank]

theorem above_rank_le {level : Level} {power : Power} (below : power < level.bound) :
    (above power).rank ≤ level.rank := by
  cases power <;> cases level <;> simp_all [above, bound, rank, Power.lt_iff, Power.rank]

theorem lt_bound {level : Level} {power : Power} {kind : Kind} (operates : kind ∈ level.operators)
    (admitted : (above power).rank ≤ level.rank) : power < level.bound := by
  cases power <;> cases level <;>
    simp_all [operators, above, bound, rank, Power.lt_iff, Power.rank]

theorem rule_of_operates {level tight : Level} {kind : Kind} (operates : kind ∈ level.operators)
    (step : level.next? = some tight) :
    Table.standard.infixRule kind = some ⟨level.bound, .binary⟩ ∧ above level.bound = tight ∧
      level.bound < .unary := by
  cases level <;> simp only [operators, List.mem_cons, List.not_mem_nil, or_false] at operates <;>
    cases step <;> rcases operates with rfl | rfl <;> exact ⟨rfl, rfl, by decide⟩

/-- The kinds after which an expression of the level cannot go on. -/
structure Completes (level : Level) (kind : Kind) : Prop where
  power : Table.standard.power kind ≤ level.bound
  separate : kind ≠ .elseKeyword

theorem Completes.of_infixRule {level : Level} {kind : Kind} {form : InfixForm}
    (registered : Table.standard.infixRule kind = some ⟨level.bound, form⟩) :
    level.Completes kind := by
  refine ⟨?_, ?_⟩
  · simp [Table.power, registered, Power.le_iff]
  · intro same
    subst same
    cases registered

theorem Completes.tighten {loose tight : Level} {kind : Kind} (completes : loose.Completes kind)
    (step : loose.next? = some tight) : tight.Completes kind := by
  have order : loose.rank ≤ tight.rank := by
    rw [next?_eq_some_iff.1 step]
    exact Nat.le_succ _
  exact ⟨Nat.le_trans completes.power (bound_le_of_rank_le order), completes.separate⟩

end Level

/-- The kinds after which no expression can go on. -/
structure Ends (kind : Kind) : Prop where
  power : Table.standard.power kind = .lowest
  separate : kind ≠ .elseKeyword

theorem Ends.completes {kind : Kind} (ends : Ends kind) (level : Level) : level.Completes kind := by
  refine ⟨?_, ends.separate⟩
  rw [ends.power]
  exact Nat.zero_le _

theorem Ends.not_lt {kind : Kind} (ends : Ends kind) (power : Power) :
    ¬ power < Table.standard.power kind := by
  rw [ends.power]
  exact Nat.not_lt_zero _

/-- What starts a statement cannot go on from the one before, unless it is one of two kinds. -/
theorem Ends.of_starts {kind : Kind}
    (form : (Table.standard.prefixForm kind).isSome ∨ (Table.standard.statementForm kind).isSome)
    (separate : ¬ continuesStatement kind) : Ends kind ∧ kind ≠ .semicolon := by
  cases kind <;> simp [Table.standard, continuesStatement] at form separate <;>
    exact ⟨⟨rfl, by decide⟩, by decide⟩

theorem Ends.closeParen : Ends .closeParen := ⟨rfl, by decide⟩

theorem Ends.comma : Ends .comma := ⟨rfl, by decide⟩

theorem Ends.semicolon : Ends .semicolon := ⟨rfl, by decide⟩

theorem Ends.closeCurly : Ends .closeCurly := ⟨rfl, by decide⟩

theorem Ends.endOfInput : Ends .endOfInput := ⟨rfl, by decide⟩

end Monkey.Grammar
