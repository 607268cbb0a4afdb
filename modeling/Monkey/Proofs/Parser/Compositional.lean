import Monkey.Proofs.Parser.Standard

namespace Monkey

/-! What goes over from the parts of a routine to the whole.

Two ways to read what stands further in make two routines of each that reads something of the
language.  A relation that is kept by every way of putting routines together holds of the two.
With one way to read what stands further in, a property of routines is such a relation; if it is
also kept where a level is opened, it holds at any depth.
-/

structure Routine.Congruence (relation : {α : Type} → Routine α → Routine α → Prop) : Prop where
  pure {α : Type} (value : α) : relation (Pure.pure value : Routine α) (Pure.pure value)
  advance : relation Routine.advance Routine.advance
  expect (kind : Kind) : relation (Routine.expect kind) (Routine.expect kind)
  skip (kind : Kind) : relation (Routine.skip kind) (Routine.skip kind)
  atom : relation Routine.atom Routine.atom
  bind {α β : Type} {routine other : Routine α} {next further : α → Routine β}
    (first : relation routine other) (later : ∀ value, relation (next value) (further value)) :
    relation (routine >>= next) (other >>= further)
  choose {α : Type} {choice another : Table → Token → Routine α}
    (each : ∀ table token, relation (choice table token) (another table token)) :
    relation (Routine.choose choice) (Routine.choose another)
  leading {inner other : Nested}
    (forms : ∀ form : PrefixForm, relation (form.read inner) (form.read other)) :
    relation (Routine.leading inner) (Routine.leading other)
  recovering {statement other : Routine Statement} (inside : relation statement other) :
    relation (Routine.recovering statement) (Routine.recovering other)
  iterate {α β : Type} {round another : α → Routine (Round α β)}
    (each : ∀ value, relation (round value) (another value)) (start : α) :
    relation (Routine.iterate round start : Routine β) (Routine.iterate another start)

/-- A property that is also kept where a level is opened. -/
structure Routine.Compositional (property : {α : Type} → Routine α → Prop) : Prop
    extends Routine.Congruence fun routine _ => property routine where
  /-- Where no level is left. -/
  refused {α : Type} : property (Routine.fail (.nestedTooDeep nestingLimit) : Routine α)
  nested {α : Type} {routine : Routine α} (inside : property routine) :
    property (Routine.nested routine)

namespace Nested

/-- The two ways to read what stands further in are related. -/
structure Relates (relation : {α : Type} → Routine α → Routine α → Prop) (inner other : Nested) :
    Prop where
  expression : ∀ power, relation (inner.expression power) (other.expression power)
  block : relation inner.block other.block

/-- What stands further in has the property. -/
abbrev Keeps (property : {α : Type} → Routine α → Prop) (inner : Nested) : Prop :=
  inner.Relates (fun routine _ => property routine) inner

end Nested

namespace Routine.Congruence

variable {relation : {α : Type} → Routine α → Routine α → Prop} {α : Type} {inner other : Nested}

theorem identifier (whole : Congruence relation) :
    relation Routine.identifier Routine.identifier :=
  whole.bind (whole.expect _) fun _ => whole.pure _

theorem separated {item another : Routine α} (whole : Congruence relation)
    (items : relation item another) :
    relation (Routine.separated item) (Routine.separated another) := by
  apply whole.iterate
  intro read
  apply whole.bind items
  intro value
  apply whole.bind (whole.skip _)
  intro skipped
  cases skipped <;> exact whole.pure _

theorem enclosed {item another : Routine α} (whole : Congruence relation)
    (items : relation item another) :
    relation (Routine.enclosed item) (Routine.enclosed another) := by
  apply whole.bind (whole.skip _)
  intro skipped
  cases skipped with
  | true => exact whole.pure _
  | false =>
      exact whole.bind (whole.separated items) fun _ =>
        whole.bind (whole.expect _) fun _ => whole.pure _

theorem unary (whole : Congruence relation) (relates : inner.Relates relation other) :
    relation (Routine.unary inner) (Routine.unary other) :=
  whole.bind whole.advance fun _ => whole.bind (relates.expression _) fun _ => whole.pure _

theorem group (whole : Congruence relation) (relates : inner.Relates relation other) :
    relation (Routine.group inner) (Routine.group other) :=
  whole.bind whole.advance fun _ => whole.bind (relates.expression _) fun _ =>
    whole.bind (whole.expect _) fun _ => whole.pure _

theorem conditional (whole : Congruence relation) (relates : inner.Relates relation other) :
    relation (Routine.conditional inner) (Routine.conditional other) := by
  apply whole.bind whole.advance
  intro token
  apply whole.bind (whole.expect _)
  intro opening
  apply whole.bind (relates.expression _)
  intro condition
  apply whole.bind (whole.expect _)
  intro closing
  apply whole.bind relates.block
  intro consequence
  apply whole.bind (whole.skip _)
  intro skipped
  cases skipped with
  | true => exact whole.bind relates.block fun _ => whole.pure _
  | false => exact whole.pure _

theorem function (whole : Congruence relation) (relates : inner.Relates relation other) :
    relation (Routine.function inner) (Routine.function other) :=
  whole.bind whole.advance fun _ => whole.bind (whole.expect _) fun _ =>
    whole.bind (whole.enclosed whole.identifier) fun _ => whole.bind relates.block fun _ =>
      whole.pure _

theorem prefixForm (whole : Congruence relation) (relates : inner.Relates relation other)
    (form : PrefixForm) : relation (form.read inner) (form.read other) := by
  cases form with
  | atom => exact whole.atom
  | unary => exact whole.unary relates
  | group => exact whole.group relates
  | conditional => exact whole.conditional relates
  | function => exact whole.function relates

theorem infixForm {left : Expr} {power : Power} (whole : Congruence relation)
    (relates : inner.Relates relation other) (form : InfixForm) :
    relation (form.read inner left power) (form.read other left power) := by
  cases form with
  | binary =>
      exact whole.bind whole.advance fun _ => whole.bind (relates.expression _) fun _ =>
        whole.pure _
  | call =>
      exact whole.bind whole.advance fun _ =>
        whole.bind (whole.enclosed (relates.expression _)) fun _ => whole.pure _

theorem continued {power : Power} {left : Expr} (whole : Congruence relation)
    (relates : inner.Relates relation other) :
    relation (Routine.continued inner power left) (Routine.continued other power left) := by
  rw [continued_eq, continued_eq]
  apply whole.choose
  intro table token
  cases table.infixRule token.kind with
  | none => exact whole.pure _
  | some rule =>
      dsimp only
      split
      · exact whole.bind (whole.infixForm relates rule.form) fun _ => whole.pure _
      · exact whole.pure _

theorem expressionBody {power : Power} (whole : Congruence relation)
    (relates : inner.Relates relation other) :
    relation (Routine.expressionBody inner power) (Routine.expressionBody other power) :=
  whole.bind (whole.leading (whole.prefixForm relates))
    (whole.iterate fun _ => whole.continued relates)

theorem ending (whole : Congruence relation) (relates : inner.Relates relation other) :
    relation (Routine.ending inner) (Routine.ending other) :=
  whole.bind (relates.expression _) fun _ => whole.bind (whole.skip _) fun _ => whole.pure _

theorem expressionStatement (whole : Congruence relation)
    (relates : inner.Relates relation other) :
    relation (Routine.expressionStatement inner) (Routine.expressionStatement other) := by
  rw [expressionStatement_eq, expressionStatement_eq]
  exact whole.choose fun _ _ => whole.bind (whole.ending relates) fun _ => whole.pure _

theorem statementForm (whole : Congruence relation) (relates : inner.Relates relation other)
    (form : StatementForm) : relation (form.read inner) (form.read other) := by
  cases form with
  | binding =>
      exact whole.bind whole.advance fun _ => whole.bind whole.identifier fun _ =>
        whole.bind (whole.expect _) fun _ => whole.bind (whole.ending relates) fun _ =>
          whole.pure _
  | result =>
      exact whole.bind whole.advance fun _ => whole.bind (whole.ending relates) fun _ =>
        whole.pure _
  | expression => exact whole.expressionStatement relates

theorem statementBody (whole : Congruence relation) (relates : inner.Relates relation other) :
    relation (Routine.statementBody inner) (Routine.statementBody other) := by
  rw [statementBody_eq, statementBody_eq]
  apply whole.choose
  intro table token
  cases table.statementForm token.kind with
  | none => exact whole.expressionStatement relates
  | some form => exact whole.statementForm relates form

theorem statementsUntil {ends : Kind → Bool} (whole : Congruence relation)
    (relates : inner.Relates relation other) :
    relation (Routine.statementsUntil ends (Routine.statementBody inner))
      (Routine.statementsUntil ends (Routine.statementBody other)) := by
  rw [statementsUntil_eq, statementsUntil_eq]
  apply whole.iterate
  intro statements
  rw [statementsRound_eq, statementsRound_eq]
  apply whole.choose
  intro table token
  split
  · exact whole.pure _
  · apply whole.bind (whole.recovering (whole.statementBody relates))
    intro statement
    cases statement <;> exact whole.pure _

theorem blockBody (whole : Congruence relation) (relates : inner.Relates relation other) :
    relation (Routine.blockBody inner) (Routine.blockBody other) :=
  whole.bind (whole.expect _) fun _ => whole.bind (whole.statementsUntil relates) fun _ =>
    whole.bind (whole.expect _) fun _ => whole.pure _

theorem programBody (whole : Congruence relation) (relates : inner.Relates relation other) :
    relation (Routine.programBody inner) (Routine.programBody other) :=
  whole.bind (whole.statementsUntil relates) fun _ => whole.pure _

end Routine.Congruence

namespace Routine.Compositional

variable {property : {α : Type} → Routine α → Prop} {α : Type}

theorem separated {item : Routine α} (whole : Compositional property) (items : property item) :
    property (Routine.separated item) :=
  @Congruence.separated _ _ item item whole.toCongruence items

theorem enclosed {item : Routine α} (whole : Compositional property) (items : property item) :
    property (Routine.enclosed item) :=
  @Congruence.enclosed _ _ item item whole.toCongruence items

theorem levels (whole : Compositional property) (count : Nat) :
    (Routine.levels count).Keeps property := by
  induction count with
  | zero => exact ⟨fun _ => whole.refused, whole.refused⟩
  | succ count ih =>
      exact ⟨fun _ => whole.nested (whole.expressionBody ih), whole.nested (whole.blockBody ih)⟩

end Routine.Compositional

end Monkey
