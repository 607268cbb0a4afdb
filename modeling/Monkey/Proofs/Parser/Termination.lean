import Monkey.Proofs.Parser.Boundary

namespace Monkey

/-! Every routine comes to an end, whatever forms are registered.

A token that is there is consumed by whatever it begins or continues.  At the end of input there
is nothing to consume, and what goes on with an expression there asks for another one that
begins there.  So as long as no expression can both begin and go on at the end of input, no loop
asks for another round in vain.
-/

namespace Parser

/-- Only the end of input looks like the end of input, and an expression cannot both begin and go
on with it. -/
structure Sound (parser : Parser) : Prop where
  finish : parser.finish.kind = .endOfInput
  pending : ∀ token ∈ parser.pending, token.kind ≠ .endOfInput
  once : parser.table.prefixForm .endOfInput = none ∨ parser.table.infixRule .endOfInput = none

variable {parser : Parser} {count : Nat} {found : List Diagnostic}

theorem Standard.sound (standard : parser.Standard) : parser.Sound :=
  ⟨standard.finish, standard.pending, .inl (by rw [standard.table]; rfl)⟩

namespace Sound

theorem beyond (sound : parser.Sound) : (parser.beyond count found).Sound where
  finish := sound.finish
  pending token member := sound.pending token (List.mem_of_mem_drop member)
  once := sound.once

theorem inside (sound : parser.Sound) :
    ({ parser with depth := parser.depth + 1 } : Parser).Sound :=
  ⟨sound.finish, sound.pending, sound.once⟩

theorem finished_iff (sound : parser.Sound) :
    parser.pending = [] ↔ parser.current.kind = .endOfInput := by
  cases pending : parser.pending with
  | nil => simp [current, pending, sound.finish]
  | cons first rest =>
      have present := sound.pending first (by simp [pending])
      simp [current, pending, present]

end Sound

end Parser

namespace Contract

variable {α β : Type}

/-- There is an end. -/
def ends : Contract α where
  ok _ _ _ := True
  failed _ _ _ := True
  endless := False

/-- There is an end, and success takes a step. -/
def steps : Contract α where
  ok _ count _ := 0 < count
  failed _ _ _ := True
  endless := False

/-- There is an end, and success takes a step.  At the end of input it takes an expression that
begins there. -/
def begins (parser : Parser) : Contract α where
  ok _ count _ := 0 < count ∧
    (parser.pending = [] → parser.table.prefixForm .endOfInput ≠ none)
  failed _ _ _ := True
  endless := False

/-- There is an end, and another round follows only if something was consumed. -/
def rounds (parser : Parser) : Contract (Round α β) where
  ok
    | .again _, count, _ => parser.taken count ≠ []
    | .done _, _, _ => True
  failed _ _ _ := True
  endless := False

/-- There is an end, and that after a step and with success. -/
def succeeds : Contract α where
  ok _ count _ := 0 < count
  failed _ _ _ := False
  endless := False

end Contract

namespace Outcome.Meets

variable {α β : Type} {parser : Parser} {outcome : Outcome α} {routine : Routine α}
  {next : α → Routine β}

theorem ends {contract : Contract α} (met : outcome.Meets parser contract)
    (finite : ¬ contract.endless) : outcome.Meets parser .ends :=
  met.mono (fun _ _ _ _ => trivial) (fun _ _ _ _ => trivial) finite

theorem ne_endless (met : outcome.Meets parser .ends) : outcome ≠ .endless := by
  rintro rfl
  cases met with
  | endless impossible => exact impossible

theorem bind_ends (sound : parser.Sound) (met : (routine parser).Meets parser .ends)
    (continues : ∀ (value : α) (parser : Parser), parser.Sound →
      (next value parser).Meets parser .ends) :
    ((routine >>= next) parser).Meets parser .ends :=
  met.bind (fun _ _ _ _ => trivial) id fun value _ _ _ =>
    (continues value _ sound.beyond).ends id

/-- A step at the beginning is enough. -/
theorem bind_steps (sound : parser.Sound) (met : (routine parser).Meets parser .steps)
    (continues : ∀ (value : α) (parser : Parser), parser.Sound →
      (next value parser).Meets parser .ends) :
    ((routine >>= next) parser).Meets parser .steps :=
  met.bind (fun _ _ _ _ => trivial) id fun value _ _ positive =>
    (continues value _ sound.beyond).mono (fun _ more _ _ => Nat.add_pos_left positive more)
      (fun _ _ _ _ => trivial) id

theorem bind_begins (sound : parser.Sound) (met : (routine parser).Meets parser (.begins parser))
    (continues : ∀ (value : α) (parser : Parser), parser.Sound →
      (next value parser).Meets parser .ends) :
    ((routine >>= next) parser).Meets parser (.begins parser) :=
  met.bind (fun _ _ _ _ => trivial) id fun value _ _ kept =>
    (continues value _ sound.beyond).mono
      (fun _ more _ _ => ⟨Nat.add_pos_left kept.1 more, kept.2⟩) (fun _ _ _ _ => trivial) id

/-- What is read at the end of input leaves the parser there. -/
theorem later_begins (sound : parser.Sound) (met : (routine parser).Meets parser .ends)
    (continues : ∀ (value : α) (parser : Parser), parser.Sound →
      (next value parser).Meets parser (.begins parser)) :
    ((routine >>= next) parser).Meets parser (.begins parser) := by
  refine met.bind (fun _ _ _ _ => trivial) id ?_
  intro value count found _
  refine (continues value _ sound.beyond).mono ?_ (fun _ _ _ _ => trivial) id
  intro result more others kept
  refine ⟨Nat.add_pos_right count kept.1, fun finished => kept.2 ?_⟩
  rw [Parser.beyond_pending, finished, List.drop_nil]

theorem bind_skip {kind : Kind} {next : Bool → Routine β} {contract : Contract β}
    (found : parser.current.kind = kind →
      (next true (parser.beyond 1 [])).Meets (parser.beyond 1 []) (contract.rest 1 []))
    (missing : parser.current.kind ≠ kind → (next false parser).Meets parser contract) :
    ((Routine.skip kind >>= next) parser).Meets parser contract := by
  by_cases present : parser.current.kind = kind
  · have run : Routine.skip kind parser = .ok true (parser.beyond 1 []) := by
      rw [Routine.skip, if_pos present, Parser.advance_eq_beyond]
    rw [Routine.bind_apply, run]
    exact .ofRest (found present)
  · have run : Routine.skip kind parser = .ok false parser := by
      rw [Routine.skip, if_neg present]
    rw [Routine.bind_apply, run]
    exact missing present

theorem iterate_ends {round : α → Routine (Round α β)} {value : α} (sound : parser.Sound)
    (step : ∀ (value : α) (parser : Parser), parser.Sound →
      (round value parser).Meets parser (.rounds parser)) :
    (Routine.iterate round value parser).Meets parser .ends := by
  refine .iterate (fun _ _ _ => True) ?_ trivial
  intro value count found _
  refine (step value _ sound.beyond).mono ?_ (fun _ _ _ _ => trivial) id
  intro decision more others kept
  cases decision with
  | again next => exact ⟨.inl kept, fun _ => trivial⟩
  | done result => exact trivial

end Outcome.Meets

/-- What stands further in comes to an end. -/
structure Nested.Finite (inner : Nested) : Prop where
  expression : ∀ (power : Power) (parser : Parser), parser.Sound →
    (inner.expression power parser).Meets parser (.begins parser)
  block : ∀ parser : Parser, parser.Sound → (inner.block parser).Meets parser .ends

namespace Routine

open Outcome

variable {α : Type} {parser : Parser} {inner : Nested}

theorem advance_steps : (advance parser).Meets parser .steps :=
  .advance Nat.one_pos

theorem expect_ends {kind : Kind} : (expect kind parser).Meets parser .ends :=
  .expect (fun _ => trivial) fun _ => trivial

theorem skip_ends {kind : Kind} : (skip kind parser).Meets parser .ends :=
  .skip (fun _ => trivial) fun _ => trivial

theorem identifier_begins (sound : parser.Sound) :
    (identifier parser).Meets parser (.begins parser) := by
  apply Meets.bind_begins sound (.expect ?_ fun _ => trivial) fun _ _ _ => .pure trivial
  intro isName
  refine ⟨Nat.one_pos, fun finished => ?_⟩
  rw [sound.finished_iff.1 finished] at isName
  cases isName

theorem separated_begins {item : Routine α} (sound : parser.Sound)
    (begins : ∀ parser : Parser, parser.Sound →
      (item parser).Meets parser (.begins parser)) :
    (separated item parser).Meets parser (.begins parser) := by
  rw [separated_eq]
  refine .iterate (fun _ _ _ => True) ?_ trivial
  intro items count found _
  refine (begins _ sound.beyond).bind (fun _ _ _ _ => trivial) id ?_
  intro value more others kept
  apply Meets.bind_skip
  · -- Another item follows a comma, which is not the end of input.
    intro separates
    refine .pure ⟨.inl ?_, fun _ => trivial⟩
    refine Parser.taken_ne_nil (Nat.succ_pos _) fun nothing => ?_
    have finished := (Parser.Sound.finished_iff (sound.beyond.beyond)).1
      (show ((parser.beyond count found).beyond more others).pending = [] by
        rw [Parser.beyond_pending, nothing, List.drop_nil])
    rw [finished] at separates
    cases separates
  · intro _
    refine .pure ⟨Nat.add_pos_right count kept.1, fun finished => kept.2 ?_⟩
    rw [Parser.beyond_pending, finished, List.drop_nil]

theorem enclosed_begins {item : Routine α} (sound : parser.Sound)
    (begins : ∀ parser : Parser, parser.Sound →
      (item parser).Meets parser (.begins parser)) :
    (enclosed item parser).Meets parser (.begins parser) := by
  apply Meets.bind_skip
  · intro closes
    refine .pure ⟨Nat.one_pos, fun finished => ?_⟩
    rw [sound.finished_iff.1 finished] at closes
    cases closes
  · intro _
    exact .bind_begins sound (separated_begins sound begins) fun _ _ sound =>
      .bind_ends sound expect_ends fun _ _ _ => .pure trivial

theorem atom_steps : (atom parser).Meets parser .steps := by
  rw [atom_apply]
  exact .ok Nat.one_pos

theorem unary_steps (finite : inner.Finite) (sound : parser.Sound) :
    (unary inner parser).Meets parser .steps :=
  .bind_steps sound advance_steps fun _ _ sound =>
    .bind_ends sound ((finite.expression _ _ sound).ends id) fun _ _ _ => .pure trivial

theorem group_steps (finite : inner.Finite) (sound : parser.Sound) :
    (group inner parser).Meets parser .steps :=
  .bind_steps sound advance_steps fun _ _ sound =>
    .bind_ends sound ((finite.expression _ _ sound).ends id) fun _ _ sound =>
      .bind_ends sound expect_ends fun _ _ _ => .pure trivial

theorem conditional_steps (finite : inner.Finite) (sound : parser.Sound) :
    (conditional inner parser).Meets parser .steps := by
  apply Meets.bind_steps sound advance_steps
  intro token parser sound
  apply Meets.bind_ends sound expect_ends
  intro opening parser sound
  apply Meets.bind_ends sound ((finite.expression _ _ sound).ends id)
  intro condition parser sound
  apply Meets.bind_ends sound expect_ends
  intro closing parser sound
  apply Meets.bind_ends sound (finite.block _ sound)
  intro consequence parser sound
  apply Meets.bind_ends sound skip_ends
  intro skipped parser sound
  cases skipped with
  | true => exact .bind_ends sound (finite.block _ sound) fun _ _ _ => .pure trivial
  | false => exact .pure trivial

theorem function_steps (finite : inner.Finite) (sound : parser.Sound) :
    (function inner parser).Meets parser .steps := by
  apply Meets.bind_steps sound advance_steps
  intro token parser sound
  apply Meets.bind_ends sound expect_ends
  intro opening parser sound
  apply Meets.bind_ends sound
    ((enclosed_begins sound fun _ => identifier_begins).ends id)
  intro parameters parser sound
  exact .bind_ends sound (finite.block _ sound) fun _ _ _ => .pure trivial

theorem prefixForm_steps (form : PrefixForm) (finite : inner.Finite) (sound : parser.Sound) :
    (form.read inner parser).Meets parser .steps := by
  cases form with
  | atom => exact atom_steps
  | unary => exact unary_steps finite sound
  | group => exact group_steps finite sound
  | conditional => exact conditional_steps finite sound
  | function => exact function_steps finite sound

/-- What goes on with an expression asks for another one. -/
theorem infixForm_begins (form : InfixForm) {left : Expr} {power : Power} (finite : inner.Finite)
    (sound : parser.Sound) : (form.read inner left power parser).Meets parser (.begins parser) := by
  cases form with
  | binary =>
      exact .later_begins sound (advance_steps.ends id) fun _ _ sound =>
        .bind_begins sound (finite.expression _ _ sound) fun _ _ _ => .pure trivial
  | call =>
      exact .later_begins sound (advance_steps.ends id) fun _ _ sound =>
        .bind_begins sound (enclosed_begins sound (finite.expression _)) fun _ _ _ =>
          .pure trivial

theorem leading_begins (finite : inner.Finite) (sound : parser.Sound) :
    (leading inner parser).Meets parser (.begins parser) := by
  rw [leading_apply]
  cases registered : parser.table.prefixForm parser.current.kind with
  | none => exact .fail trivial
  | some form =>
      refine (prefixForm_steps form finite sound).mono ?_ (fun _ _ _ _ => trivial) id
      intro value count found positive
      refine ⟨positive, fun finished => ?_⟩
      rw [← sound.finished_iff.1 finished, registered]
      exact Option.some_ne_none form

/-- At the end of input an expression cannot go on, since none can begin after that. -/
theorem continued_rounds {power : Power} {left : Expr} (finite : inner.Finite)
    (sound : parser.Sound) :
    (continued inner power left parser).Meets parser (.rounds parser) := by
  rw [continued_apply]
  cases registered : parser.table.infixRule parser.current.kind with
  | none => exact .pure trivial
  | some rule =>
      dsimp only
      split
      · refine (infixForm_begins rule.form finite sound).bind (fun _ _ _ _ => trivial) id ?_
        intro extended count found kept
        refine .pure (Parser.taken_ne_nil kept.1 fun finished => ?_)
        rw [sound.finished_iff.1 finished] at registered
        rcases sound.once with none | none
        · exact kept.2 finished none
        · rw [none] at registered
          cases registered
      · exact .pure trivial

theorem expressionBody_begins {power : Power} (finite : inner.Finite) (sound : parser.Sound) :
    (expressionBody inner power parser).Meets parser (.begins parser) :=
  .bind_begins sound (leading_begins finite sound) fun _ _ sound =>
    .iterate_ends sound fun _ _ => continued_rounds finite

theorem ending_steps (finite : inner.Finite) (sound : parser.Sound) :
    (ending inner parser).Meets parser .steps :=
  .bind_steps sound
    ((finite.expression _ _ sound).mono (fun _ _ _ kept => kept.1) (fun _ _ _ _ => trivial) id)
    fun _ _ sound => .bind_ends sound skip_ends fun _ _ _ => .pure trivial

theorem expressionStatement_steps (finite : inner.Finite) (sound : parser.Sound) :
    (expressionStatement inner parser).Meets parser .steps := by
  rw [expressionStatement_apply]
  exact .bind_steps sound (ending_steps finite sound) fun _ _ _ => .pure trivial

theorem statementForm_steps (form : StatementForm) (finite : inner.Finite)
    (sound : parser.Sound) : (form.read inner parser).Meets parser .steps := by
  cases form with
  | binding =>
      apply Meets.bind_steps sound advance_steps
      intro token parser sound
      apply Meets.bind_ends sound ((identifier_begins sound).ends id)
      intro name parser sound
      apply Meets.bind_ends sound expect_ends
      intro assignment parser sound
      exact .bind_ends sound ((ending_steps finite sound).ends id) fun _ _ _ => .pure trivial
  | result =>
      apply Meets.bind_steps sound advance_steps
      intro token parser sound
      exact .bind_ends sound ((ending_steps finite sound).ends id) fun _ _ _ => .pure trivial
  | expression => exact expressionStatement_steps finite sound

theorem statementBody_steps (finite : inner.Finite) (sound : parser.Sound) :
    (statementBody inner parser).Meets parser .steps := by
  rw [statementBody_apply]
  cases parser.table.statementForm parser.current.kind with
  | none => exact expressionStatement_steps finite sound
  | some form => exact statementForm_steps form finite sound

/-- A statement is read or skipped, and takes a step either way. -/
theorem recovering_succeeds (finite : inner.Finite) (sound : parser.Sound) :
    (recovering (statementBody inner) parser).Meets parser .succeeds :=
  (statementBody_steps finite sound).recovering (fun _ _ _ positive => positive)
    (fun _ _ _ _ => Parser.resumed_pos) id

theorem statementsUntil_ends {ends : Kind → Bool} (finite : inner.Finite)
    (last : ends .endOfInput = true) (sound : parser.Sound) :
    (statementsUntil ends (statementBody inner) parser).Meets parser .ends := by
  rw [statementsUntil_eq]
  apply Meets.iterate_ends sound
  intro statements parser sound
  unfold statementsRound
  split
  · exact .pure trivial
  · rename_i goesOn
    have present : parser.pending ≠ [] := by
      intro finished
      exact goesOn (by rw [sound.finished_iff.1 finished, last])
    refine (recovering_succeeds finite sound).bind (fun _ _ _ _ => trivial) id ?_
    intro statement count found positive
    have consumed := Parser.taken_ne_nil positive present
    cases statement <;> exact .pure consumed

theorem blockBody_ends (finite : inner.Finite) (sound : parser.Sound) :
    (blockBody inner parser).Meets parser .ends :=
  .bind_ends sound expect_ends fun _ _ sound =>
    .bind_ends sound (statementsUntil_ends finite (by decide) sound) fun _ _ sound =>
      .bind_ends sound expect_ends fun _ _ _ => .pure trivial

theorem programBody_ends (finite : inner.Finite) (sound : parser.Sound) :
    (programBody inner parser).Meets parser .ends :=
  .bind_ends sound (statementsUntil_ends finite (by decide) sound) fun _ _ _ => .pure trivial

/-- However many levels are left, what stands further in comes to an end. -/
theorem levels_finite (count : Nat) : (levels count).Finite := by
  induction count with
  | zero => exact ⟨fun _ _ _ => .fail trivial, fun _ _ => .fail trivial⟩
  | succ count ih =>
      refine ⟨fun _ _ sound => .nested (fun _ => trivial) fun _ => ?_,
        fun _ sound => .nested (fun _ => trivial) fun _ => blockBody_ends ih sound.inside⟩
      exact expressionBody_begins ih sound.inside

end Routine

end Monkey
