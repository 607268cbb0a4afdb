import Monkey.Proofs.Parser.Standard
import Monkey.Proofs.Tree.Paths

namespace Monkey

/-! Trees are shallow, but for what stands on the left.

What is read with so many levels left has no path that leads further in more often than that,
whatever forms are registered and whatever goes wrong on the way.  What is read on the left is
read at the level of the whole, and is not counted.
-/

namespace Routine

variable {α β : Type}

/-- From wherever it is run, a routine that succeeds gives a value that keeps the promise. -/
def Yields (routine : Routine α) (promise : α → Prop) : Prop :=
  ∀ parser value after, routine parser = .ok value after → promise value

namespace Yields

variable {routine : Routine α} {next : α → Routine β} {held : α → Prop} {promise : β → Prop}

theorem pure {value : α} (kept : held value) : (Pure.pure value : Routine α).Yields held := by
  rintro parser _ after ⟨⟩
  exact kept

theorem fail {cause : Cause} : (Routine.fail cause : Routine α).Yields held := by
  rintro parser value after ⟨⟩

theorem bind (yields : routine.Yields held)
    (continues : ∀ value, held value → (next value).Yields promise) :
    (routine >>= next).Yields promise := by
  intro parser result after run
  rw [bind_apply] at run
  split at run
  · rename_i value middle first
    exact continues value (yields _ _ _ first) _ _ _ run
  · cases run
  · cases run

/-- Nothing is asked of what the first routine gives. -/
theorem andThen (continues : ∀ value, (next value).Yields promise) :
    (routine >>= next).Yields promise :=
  @bind _ _ _ _ (fun _ => True) _ (fun _ _ _ _ => trivial) fun value _ => continues value

theorem choose {choice : Table → Token → Routine α}
    (yields : ∀ table token, (choice table token).Yields held) :
    (Routine.choose choice).Yields held :=
  fun parser => yields parser.table parser.current parser

theorem either {condition : Prop} [Decidable condition] {yes no : Routine α}
    (yesYields : yes.Yields held) (noYields : no.Yields held) :
    (if condition then yes else no).Yields held := by
  split
  · exact yesYields
  · exact noYields

theorem nested (yields : routine.Yields held) : (Routine.nested routine).Yields held := by
  intro parser value after run
  unfold Routine.nested at run
  split at run
  · rename_i inside _
    generalize ran : routine inside = outcome at run
    cases outcome with
    | ok read left =>
        cases run
        exact yields _ _ _ ran
    | failed diagnostic left => cases run
    | endless => cases run
  · cases run
  · cases run

theorem recovering {statement : Routine Statement} {held : Statement → Prop}
    (yields : statement.Yields held) :
    (Routine.recovering statement).Yields fun result => ∀ tree ∈ result, held tree := by
  intro parser result after run
  unfold Routine.recovering at run
  split at run
  · rename_i tree middle read
    cases run
    rintro _ ⟨⟩
    exact yields _ _ _ read
  · cases run
    exact fun _ member => nomatch member
  · cases run

theorem iterate {round : α → Routine (Round α β)} {value : α}
    (step : ∀ value, held value → (round value).Yields fun
      | .again next => held next
      | .done result => promise result)
    (start : held value) : Yields (Routine.iterate round value) promise := by
  intro parser result after run
  -- Another round is run only when fewer tokens are left.
  induction length : parser.pending.length using Nat.strongRecOn generalizing parser value with
  | ind left ih =>
      unfold Routine.iterate at run
      split at run
      · rename_i last middle decided
        cases run
        exact step value start _ _ _ decided
      · rename_i next middle decided
        split at run
        · rename_i shorter
          exact ih _ (length ▸ shorter) (step value start _ _ _ decided) _ run rfl
        · cases run
      · cases run
      · cases run

end Yields

end Routine

/-- What stands further in has no path that leads more often further in than levels are left. -/
structure Nested.Shallow (inner : Nested) (room : Nat) : Prop where
  expression : ∀ power,
    (inner.expression power).Yields fun tree => (Node.expression tree).Within room
  block : inner.block.Yields fun tree => (Node.block tree).Within room

namespace Routine

open Yields

variable {α : Type} {inner : Nested} {room : Nat}

theorem separated_yields {item : Routine α} {held : α → Prop} (yields : item.Yields held) :
    (separated item).Yields fun items => ∀ value ∈ items, held value := by
  rw [separated_eq]
  refine @Yields.iterate _ _ (fun items => ∀ value ∈ items, held value) _ _ _ ?_ (by simp)
  intro items kept
  refine .bind yields fun value valueKept => .andThen fun separates => ?_
  have pushed : ∀ other ∈ items.push value, held other := by
    intro other member
    rcases Array.mem_push.1 member with old | rfl
    · exact kept other old
    · exact valueKept
  exact .either (.pure pushed) (.pure fun other member => pushed other (Array.mem_toList_iff.1 member))

theorem enclosed_yields {item : Routine α} {held : α → Prop} (yields : item.Yields held) :
    (enclosed item).Yields fun items => ∀ value ∈ items, held value :=
  .andThen fun _ => .either (.pure (by simp)) <|
    .bind (separated_yields yields) fun _ kept => .andThen fun _ => .pure kept

/-- What a form reads has one more level to itself. -/
abbrev Deeper (room : Nat) (tree : Expr) : Prop :=
  (Node.expression tree).Within (room + 1)

theorem atom_yields : atom.Yields (Deeper room) := by
  intro parser tree after run
  rw [atom_apply] at run
  cases run
  apply Node.Within.of_children
  unfold Expr.ofToken
  split <;> simp [Node.children]

theorem unary_yields (shallow : inner.Shallow room) : (unary inner).Yields (Deeper room) :=
  .andThen fun _ => .bind (shallow.expression _) fun operand within => .pure <|
    .of_children (by simpa [Node.children, Edge.deepens] using within)

/-- Parentheses are read one level further in, and leave no edge. -/
theorem group_yields (shallow : inner.Shallow room) : (group inner).Yields (Deeper room) :=
  .andThen fun _ => .bind (shallow.expression _) fun _ within => .andThen fun _ => .pure <|
    within.mono (Nat.le_succ room)

theorem conditional_yields (shallow : inner.Shallow room) :
    (conditional inner).Yields (Deeper room) := by
  refine .andThen fun _ => .andThen fun _ => .bind (shallow.expression _) ?_
  intro condition conditionWithin
  refine .andThen fun _ => .bind shallow.block ?_
  intro consequence consequenceWithin
  refine .andThen fun _ => .either (.bind shallow.block ?_) (.pure ?_)
  · intro alternative alternativeWithin
    refine .pure (.of_children ?_)
    simpa [Node.children, Edge.deepens] using
      ⟨conditionWithin, consequenceWithin, alternativeWithin⟩
  · refine .of_children ?_
    simpa [Node.children, Edge.deepens] using ⟨conditionWithin, consequenceWithin⟩

theorem function_yields (shallow : inner.Shallow room) :
    (function inner).Yields (Deeper room) := by
  refine .andThen fun _ => .andThen fun _ => .andThen fun parameters => .bind shallow.block ?_
  intro body within
  refine .pure (.of_children ?_)
  have names : ∀ name, (Node.binder name).Within (room + 1) :=
    fun name => .of_children (by simp [Node.children])
  simpa [Node.children, Edge.deepens, names] using within

theorem prefixForm_yields (form : PrefixForm) (shallow : inner.Shallow room) :
    (form.read inner).Yields (Deeper room) := by
  cases form with
  | atom => exact atom_yields
  | unary => exact unary_yields shallow
  | group => exact group_yields shallow
  | conditional => exact conditional_yields shallow
  | function => exact function_yields shallow

/-- What stands on the left was read before, and may be as deep as the whole. -/
theorem infixForm_yields (form : InfixForm) {left : Expr} {power : Power}
    (shallow : inner.Shallow room) (leftWithin : Deeper room left) :
    (form.read inner left power).Yields (Deeper room) := by
  cases form with
  | binary =>
      refine .andThen fun _ => .bind (shallow.expression _) fun right within => .pure ?_
      refine .of_children ?_
      simpa [Node.children, Edge.deepens] using ⟨leftWithin, within⟩
  | call =>
      refine .andThen fun _ => .bind (enclosed_yields (shallow.expression _)) ?_
      intro arguments within
      refine .pure (.of_children ?_)
      simpa [Node.children, Edge.deepens] using ⟨leftWithin, within⟩

theorem leading_yields (shallow : inner.Shallow room) : (leading inner).Yields (Deeper room) := by
  rw [leading_eq]
  refine .choose fun table token => ?_
  cases table.prefixForm token.kind with
  | none => exact .fail
  | some form => exact prefixForm_yields form shallow

theorem expressionBody_yields {power : Power} (shallow : inner.Shallow room) :
    (expressionBody inner power).Yields (Deeper room) := by
  refine .bind (leading_yields shallow) fun first within => .iterate ?_ within
  intro left within
  rw [continued_eq]
  refine .choose fun table token => ?_
  cases table.infixRule token.kind with
  | none => exact .pure within
  | some rule =>
      exact .either (.bind (infixForm_yields rule.form shallow within) fun _ kept => .pure kept)
        (.pure within)

theorem ending_yields (shallow : inner.Shallow room) :
    (ending inner).Yields fun tree => (Node.expression tree).Within room :=
  .bind (shallow.expression _) fun _ within => .andThen fun _ => .pure within

theorem expressionStatement_yields (shallow : inner.Shallow room) :
    (expressionStatement inner).Yields fun tree => (Node.statement tree).Within (room + 1) :=
  .andThen fun _ => .bind (ending_yields shallow) fun _ within => .pure <|
    .of_children (by simpa [Node.children, Edge.deepens] using within)

theorem statementForm_yields (form : StatementForm) (shallow : inner.Shallow room) :
    (form.read inner).Yields fun tree => (Node.statement tree).Within (room + 1) := by
  cases form with
  | binding =>
      refine .andThen fun _ => .andThen fun name => .andThen fun _ => .bind (ending_yields shallow) ?_
      intro value within
      refine .pure (.of_children ?_)
      have nameWithin : (Node.binder name).Within (room + 1) :=
        .of_children (by simp [Node.children])
      simpa [Node.children, Edge.deepens, nameWithin] using within
  | result =>
      refine .andThen fun _ => .bind (ending_yields shallow) fun value within => .pure ?_
      exact .of_children (by simpa [Node.children, Edge.deepens] using within)
  | expression => exact expressionStatement_yields shallow

theorem statementBody_yields (shallow : inner.Shallow room) :
    (statementBody inner).Yields fun tree => (Node.statement tree).Within (room + 1) := by
  rw [statementBody_eq]
  refine .choose fun table token => ?_
  cases table.statementForm token.kind with
  | none => exact expressionStatement_yields shallow
  | some form => exact statementForm_yields form shallow

theorem statementsUntil_yields {ends : Kind → Bool} (shallow : inner.Shallow room) :
    (statementsUntil ends (statementBody inner)).Yields fun statements =>
      ∀ tree ∈ statements, (Node.statement tree).Within (room + 1) := by
  rw [statementsUntil_eq]
  refine @Yields.iterate _ _ (fun statements : Array Statement =>
    ∀ tree ∈ statements, (Node.statement tree).Within (room + 1)) _ _ _ ?_ (by simp)
  intro statements within
  rw [statementsRound_eq]
  refine .choose fun table token => .either (.pure ?_) (.bind (.recovering (statementBody_yields shallow)) ?_)
  · exact fun tree member => within tree (Array.mem_toList_iff.1 member)
  · intro result kept
    cases result with
    | none => exact .pure within -- What failed leaves nothing in the tree.
    | some tree =>
        refine .pure fun other member => ?_
        rcases Array.mem_push.1 member with old | rfl
        · exact within other old
        · exact kept other rfl

theorem blockBody_yields (shallow : inner.Shallow room) :
    (blockBody inner).Yields fun tree => (Node.block tree).Within (room + 1) := by
  refine .andThen fun _ => .bind (statementsUntil_yields shallow) ?_
  intro statements within
  refine .andThen fun _ => .pure (.of_children ?_)
  simpa [Node.children, Edge.deepens] using within

theorem programBody_yields (shallow : inner.Shallow room) :
    (programBody inner).Yields fun program =>
      ∀ tree ∈ program.statements, (Node.statement tree).Within (room + 1) :=
  .bind (statementsUntil_yields shallow) fun _ within => .pure within

/-- One level further in, there is room for one edge less. -/
theorem levels_shallow (count : Nat) : (levels count).Shallow count := by
  induction count with
  | zero => exact ⟨fun _ => .fail, .fail⟩
  | succ count ih =>
      exact ⟨fun _ => .nested (expressionBody_yields ih), .nested (blockBody_yields ih)⟩

end Routine

end Monkey
