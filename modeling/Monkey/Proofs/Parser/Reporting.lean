import Monkey.Proofs.Parser.Boundary
import Monkey.Proofs.Parser.Compositional

namespace Monkey

/-! What is reported is true of the token at which it was found.

A routine fails at the token it has come to, for a reason that lies in that token, and only an
integer that is too large is reported and yet read.  So every diagnostic, however it came to be
recorded, speaks of a token of the source.
-/

/-- What keeps a routine from going on with the token. -/
inductive Cause.Stops (table : Table) (token : Token) : Cause → Prop
  | unexpected {expected : Kind} (other : token.kind ≠ expected) :
      Stops table token (.expectedToken expected token.kind)
  | unregistered (none : table.prefixForm token.kind = none) :
      Stops table token (.noExpression token.kind token.text)
  | tooDeep : Stops table token (.nestedTooDeep nestingLimit)

/-- The diagnostic says why a routine did not go on with the token. -/
structure Diagnostic.StopsAt (diagnostic : Diagnostic) (table : Table) (token : Token) : Prop where
  place : diagnostic.position = token.span.start
  cause : diagnostic.cause.Stops table token

namespace Parser

variable {parser : Parser} {diagnostic : Diagnostic} {count : Nat} {found : List Diagnostic}

/-- The diagnostic speaks of one of the tokens from the current one on. -/
def Reports (parser : Parser) (diagnostic : Diagnostic) : Prop :=
  ∃ index, diagnostic.StopsAt parser.table (parser.token index) ∨
    diagnostic ∈ (parser.token index).excess

theorem Reports.of_beyond (reports : (parser.beyond count found).Reports diagnostic) :
    parser.Reports diagnostic := by
  obtain ⟨index, speaks⟩ := reports
  rw [token_beyond] at speaks
  exact ⟨count + index, speaks⟩

end Parser

namespace Contract

/-- What is recorded speaks of tokens, and a failure of the one it came to. -/
def truthful {α : Type} (parser : Parser) : Contract α where
  ok _ _ found := ∀ diagnostic ∈ found, parser.Reports diagnostic
  failed diagnostic count found := (∀ other ∈ found, parser.Reports other) ∧
    diagnostic.StopsAt parser.table (parser.token count)
  endless := True

end Contract

namespace Routine

open Outcome

def Truthful {α : Type} (routine : Routine α) : Prop :=
  ∀ parser, (routine parser).Meets parser (.truthful parser)

namespace Truthful

variable {α β : Type} {parser : Parser} {routine : Routine α} {count : Nat}
  {found : List Diagnostic}

/-- What is found after some tokens is about tokens that come after those. -/
theorem rest {outcome : Outcome α} (reports : ∀ diagnostic ∈ found, parser.Reports diagnostic)
    (met : outcome.Meets (parser.beyond count found) (.truthful (parser.beyond count found))) :
    outcome.Meets (parser.beyond count found)
      ((Contract.truthful parser).rest count found) := by
  have all : ∀ others, (∀ diagnostic ∈ others, (parser.beyond count found).Reports diagnostic) →
      ∀ diagnostic ∈ found ++ others, parser.Reports diagnostic :=
    fun others later => List.forall_mem_append.2
      ⟨reports, fun diagnostic member => (later diagnostic member).of_beyond⟩
  refine met.mono (fun _ _ others later => all others later) ?_ id
  rintro diagnostic more others ⟨later, stops⟩
  rw [Parser.token_beyond] at stops
  exact ⟨all others later, stops⟩

theorem pure {value : α} : (Pure.pure value : Routine α).Truthful :=
  fun _ => .pure (List.forall_mem_nil _)

theorem fail {cause : Cause} (stops : cause.Stops parser.table parser.current) :
    (Routine.fail cause parser : Outcome α).Meets parser (.truthful parser) :=
  .fail ⟨List.forall_mem_nil _, rfl, stops⟩

theorem expect {kind : Kind} : (Routine.expect kind).Truthful :=
  fun _ => .expect (fun _ => List.forall_mem_nil _) fun other =>
    ⟨List.forall_mem_nil _, rfl, .unexpected other⟩

theorem skip {kind : Kind} : (Routine.skip kind).Truthful :=
  fun _ => .skip (fun _ => List.forall_mem_nil _) fun _ => List.forall_mem_nil _

theorem atom : Routine.atom.Truthful := by
  intro parser
  rw [atom_apply]
  exact .ok fun diagnostic member => ⟨0, .inr member⟩

theorem bind {next : α → Routine β} (first : routine.Truthful)
    (later : ∀ value, (next value).Truthful) : (routine >>= next).Truthful := by
  intro parser
  refine (first parser).bind (fun _ _ _ => id) id ?_
  intro value count found reports
  exact rest reports (later value _)

theorem leading {inner : Nested} (forms : ∀ form : PrefixForm, (form.read inner).Truthful) :
    (Routine.leading inner).Truthful := by
  intro parser
  rw [leading_apply]
  cases registered : parser.table.prefixForm parser.current.kind with
  | none => exact fail (.unregistered registered)
  | some form => exact forms form parser

theorem nested (inside : routine.Truthful) : (Routine.nested routine).Truthful := by
  intro parser
  refine .nested (fun _ => ⟨List.forall_mem_nil _, rfl, .tooDeep⟩) fun _ => ?_
  exact (inside _).mono (fun _ _ _ => id) (fun _ _ _ => id) id

/-- The failure is recorded, and speaks of the token that the statement came to. -/
theorem recovering {statement : Routine Statement} (inside : statement.Truthful) :
    (Routine.recovering statement).Truthful := by
  intro parser
  refine (inside parser).recovering (fun _ _ _ => id) ?_ id
  rintro diagnostic count found ⟨reports, stops⟩
  exact List.forall_mem_append.2 ⟨reports, List.forall_mem_singleton.2 ⟨count, .inl stops⟩⟩

theorem iterate {round : α → Routine (Round α β)} (each : ∀ value, (round value).Truthful)
    (start : α) : Truthful (Routine.iterate round start) := by
  intro parser
  refine .iterate (fun _ _ found => ∀ diagnostic ∈ found, parser.Reports diagnostic) ?_
    (List.forall_mem_nil _)
  intro value count found reports
  refine (rest reports (each value _)).mono ?_ (fun _ _ _ => id) id
  intro decision more others all
  cases decision with
  | again next => exact ⟨.inr trivial, fun _ => all⟩
  | done result => exact all

theorem compositional : Compositional Truthful where
  pure _ := pure
  advance _ := .advance (List.forall_mem_nil _)
  expect _ := expect
  skip _ := skip
  atom := atom
  refused _ := fail .tooDeep
  bind := bind
  choose each parser := each parser.table parser.current parser
  leading := leading
  nested := nested
  recovering := recovering
  iterate := iterate

end Truthful

end Routine

/-- Everything that is recorded while a source is parsed speaks of one of its tokens. -/
theorem parse_truthful (source : String) (file : Option String) :
    (parse source file).Meets (.ofSource source file)
      (.truthful (.ofSource source file)) :=
  Routine.Truthful.compositional.programBody (Routine.Truthful.compositional.levels _) _

end Monkey
