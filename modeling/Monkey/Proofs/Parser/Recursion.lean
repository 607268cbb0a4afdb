import Monkey.Proofs.Parser.Failure
import Monkey.Proofs.Parser.Nesting

namespace Monkey

/-! The recursion of the language.

Expressions and blocks are defined by how many levels are left.  All the same they satisfy the
equations that the language states for them, each made of the two with no count of levels.  This is
so because all that a routine asks for starts with as many levels open as the routine found.
-/

/-- From parsers with so many levels open both routines do the same, and leave as many open. -/
def Routine.SameAt {α : Type} (depth : Nat) (routine other : Routine α) : Prop :=
  ∀ parser : Parser, parser.depth = depth → routine parser = other parser ∧
    ∀ after, (routine parser).after? = some after → after.depth = depth

namespace Routine.SameAt

variable {α β : Type} {depth : Nat} {routine other : Routine α}

theorem refl (recipe : Recipe routine) : SameAt depth routine routine :=
  fun _ held => ⟨rfl, fun _ left => (recipe.depth_eq left).trans held⟩

theorem bind {next further : α → Routine β} (first : SameAt depth routine other)
    (later : ∀ value, SameAt depth (next value) (further value)) :
    SameAt depth (routine >>= next) (other >>= further) := by
  intro parser held
  obtain ⟨same, kept⟩ := first parser held
  refine ⟨?_, ?_⟩
  · rw [bind_apply, bind_apply, ← same]
    cases run : routine parser with
    | ok value middle => exact (later value middle (kept middle (congrArg _ run))).1
    | failed diagnostic middle => rfl
    | endless => rfl
  · intro after left
    rcases after?_bind left with ⟨value, middle, run, rest⟩ | ⟨diagnostic, run⟩
    · exact (later value middle (kept middle (congrArg _ run))).2 after rest
    · exact kept after (congrArg _ run)

theorem choose {choice another : Table → Token → Routine α}
    (each : ∀ table token, SameAt depth (choice table token) (another table token)) :
    SameAt depth (Routine.choose choice) (Routine.choose another) :=
  fun parser held => each parser.table parser.current parser held

theorem leading {inner other : Nested}
    (forms : ∀ form : PrefixForm, SameAt depth (form.read inner) (form.read other)) :
    SameAt depth (Routine.leading inner) (Routine.leading other) := by
  rw [leading_eq, leading_eq]
  apply choose
  intro table token
  cases table.prefixForm token.kind with
  | none => exact refl .fail
  | some form => exact forms form

theorem recovering {statement other : Routine Statement} (inside : SameAt depth statement other) :
    SameAt depth (Routine.recovering statement) (Routine.recovering other) := by
  intro parser held
  obtain ⟨same, kept⟩ := inside parser held
  refine ⟨by rw [Routine.recovering, Routine.recovering, same], ?_⟩
  intro after left
  rcases after?_recovering left with ⟨value, run⟩ | ⟨diagnostic, middle, run, rfl⟩
  · exact kept after (congrArg _ run)
  · rw [Parser.resume_eq_advance]
    exact kept middle (congrArg _ run)

theorem iterate {round another : α → Routine (Round α β)}
    (each : ∀ value, SameAt depth (round value) (another value)) (start : α) :
    SameAt depth (Routine.iterate round start : Routine β) (Routine.iterate another start) := by
  intro parser held
  fun_induction Routine.iterate round start parser with
  | case1 value parser result after run =>
      obtain ⟨same, kept⟩ := each value parser held
      rw [iterate_done (same.symm.trans run)]
      refine ⟨rfl, ?_⟩
      rintro after ⟨⟩
      exact kept after (congrArg _ run)
  | case2 value parser next middle run shorter ih =>
      obtain ⟨same, kept⟩ := each value parser held
      rw [iterate_again (same.symm.trans run) shorter]
      exact ih (kept middle (congrArg _ run))
  | case3 value parser next middle run longer =>
      obtain ⟨same, kept⟩ := each value parser held
      rw [Routine.iterate, ← same, run]
      dsimp only
      rw [dif_neg longer]
      exact ⟨rfl, fun _ left => by cases left⟩
  | case4 value parser diagnostic after run =>
      obtain ⟨same, kept⟩ := each value parser held
      rw [iterate_failed (same.symm.trans run)]
      refine ⟨rfl, ?_⟩
      rintro after ⟨⟩
      exact kept after (congrArg _ run)
  | case5 value parser run =>
      obtain ⟨same, kept⟩ := each value parser held
      rw [Routine.iterate, ← same, run]
      exact ⟨rfl, fun _ left => by cases left⟩

theorem congruence (depth : Nat) : Congruence (SameAt depth) where
  pure _ := refl .pure
  advance := refl .advance
  expect _ := refl .expect
  skip _ := refl .skip
  atom := refl .atom
  bind := bind
  choose := choose
  leading := leading
  recovering := recovering
  iterate := iterate

/-- Where a level is opened, one more is open inside. -/
theorem nested (inside : SameAt (depth + 1) routine other) :
    SameAt depth (Routine.nested routine) (Routine.nested other) := by
  intro parser held
  rcases Nat.lt_or_ge parser.depth nestingLimit with room | full
  · obtain ⟨same, kept⟩ :=
      inside { parser with depth := parser.depth + 1 } (congrArg (· + 1) held)
    rw [nested_apply room, nested_apply room, ← same]
    refine ⟨rfl, ?_⟩
    intro after left
    rw [Outcome.after?_mapAfter] at left
    obtain ⟨middle, run, rfl⟩ := Option.map_eq_some_iff.1 left
    exact congrArg (· - 1) (kept middle run)
  · rw [nested_refused full, nested_refused full]
    exact refl .fail parser held

end Routine.SameAt

namespace Nested

/-- The expressions and blocks of the language. -/
def language : Nested := ⟨Routine.expression, Routine.block⟩

/-- Wherever so many levels are open, expressions and blocks are read as in the language. -/
structure LanguageAt (inner : Nested) (depth : Nat) : Prop where
  expression {parser : Parser} (power : Power) (held : parser.depth = depth) :
    inner.expression power parser = Routine.expression power parser
  block {parser : Parser} (held : parser.depth = depth) : inner.block parser = Routine.block parser

variable {inner : Nested} {depth : Nat}

theorem LanguageAt.relates (like : inner.LanguageAt depth) :
    language.Relates (Routine.SameAt depth) inner where
  expression power _ held := ⟨(like.expression power held).symm,
    fun _ left => (@Call.depth_eq (.expression power) _ _ left).trans held⟩
  block _ held := ⟨(like.block held).symm, fun _ left => (@Call.depth_eq .block _ _ left).trans held⟩

theorem levels_languageAt (depth : Nat) :
    (Routine.levels (nestingLimit - depth)).LanguageAt depth where
  expression _ held := by
    subst held
    rfl
  block held := by
    subst held
    rfl

end Nested

/-- What a call asks for itself starts with as many levels open as the call found.  Any other way
to read expressions and blocks that is the language's there makes no difference. -/
theorem Call.body_eq {inner : Nested} {parser : Parser} (like : inner.LanguageAt parser.depth)
    (call : Call) : call.body inner parser = call.run parser := by
  have congruence := Routine.SameAt.congruence parser.depth
  have levels := Nested.levels_languageAt parser.depth
  calc call.body inner parser
      = call.body .language parser := ((congruence.call like.relates call) parser rfl).1.symm
    _ = call.run parser := ((congruence.call levels.relates call) parser rfl).1

/-- Everything that can be read is made from the expressions and blocks of the language. -/
theorem Call.run_eq (call : Call) : call.run = call.body .language :=
  funext fun _ => (call.body_eq ⟨fun _ _ => rfl, fun _ => rfl⟩).symm

namespace Routine

/-- What is defined level by level, with a body that is made from expressions and blocks, is one
level around the body that is made from those of the language. -/
theorem withLevels_eq {α : Type} (part body : Nested → Routine α)
    (last : part (levels 0) = fail (.nestedTooDeep nestingLimit))
    (step : ∀ count, part (levels (count + 1)) = nested (body (levels count)))
    (same : ∀ {depth : Nat} {inner : Nested}, Nested.language.Relates (SameAt depth) inner →
      SameAt depth (body .language) (body inner)) :
    withLevels part = nested (body .language) := by
  funext parser
  rw [withLevels]
  rcases Nat.lt_or_ge parser.depth nestingLimit with room | full
  · have next : nestingLimit - parser.depth = nestingLimit - (parser.depth + 1) + 1 := by omega
    have inside := same (Nested.levels_languageAt (parser.depth + 1)).relates
    rw [next, step]
    exact (inside.nested parser rfl).1.symm
  · rw [Nat.sub_eq_zero_of_le full, last, nested_refused full]

theorem expression_eq (power : Power) :
    expression power = nested (expressionBody .language power) :=
  withLevels_eq (·.expression power) (expressionBody · power) rfl (fun _ => rfl)
    (SameAt.congruence _).expressionBody

theorem block_eq : block = nested (blockBody .language) :=
  withLevels_eq (·.block) blockBody rfl (fun _ => rfl) (SameAt.congruence _).blockBody

end Routine

end Monkey
