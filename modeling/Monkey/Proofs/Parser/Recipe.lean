import Monkey.Proofs.Parser.Boundary

namespace Monkey

/-! How routines are put together.

A recipe for a routine says from which steps it is made.  It is data, not only a proof, so
that what a run does on the way can be computed from it; and what holds of every way of
putting steps together holds of every routine that has a recipe.
-/

inductive Recipe : {α : Type} → Routine α → Type 1
  | pure {α : Type} {value : α} : Recipe (Pure.pure value)
  | state : Recipe Routine.state
  | fail {α : Type} {cause : Cause} : Recipe (Routine.fail cause : Routine α)
  | advance : Recipe Routine.advance
  | expect {kind : Kind} : Recipe (Routine.expect kind)
  | skip {kind : Kind} : Recipe (Routine.skip kind)
  | atom : Recipe Routine.atom
  | bind {α β : Type} {routine : Routine α} {next : α → Routine β} (first : Recipe routine)
      (later : (value : α) → Recipe (next value)) : Recipe (routine >>= next)
  | nested {α : Type} {routine : Routine α} (inside : Recipe routine) :
      Recipe (Routine.nested routine)
  | recovering {statement : Routine Statement} (inside : Recipe statement) :
      Recipe (Routine.recovering statement)
  | iterate {α β : Type} {round : α → Routine (Round α β)} {start : α}
      (each : (value : α) → Recipe (round value)) : Recipe (Routine.iterate round start)

namespace Recipe

variable {α : Type} {yes no : Routine α}

/-- Which of two routines is run may depend on anything that is known beforehand. -/
def either {condition : Prop} (yesRecipe : Recipe yes) (noRecipe : Recipe no) :
    [Decidable condition] → Recipe (if condition then yes else no)
  | isTrue _ => yesRecipe
  | isFalse _ => noRecipe

end Recipe

structure Nested.Recipes (inner : Nested) where
  expression : (power : Power) → Recipe (inner.expression power)
  block : Recipe inner.block

namespace Routine

variable {α : Type} {inner : Nested}

def separatedRecipe {item : Routine α} (recipe : Recipe item) : Recipe (separated item) :=
  .iterate fun _ => .bind recipe fun _ => .bind .skip fun _ => .either .pure .pure

def enclosedRecipe {item : Routine α} (recipe : Recipe item) : Recipe (enclosed item) :=
  .bind .skip fun _ => .either .pure <|
    .bind (separatedRecipe recipe) fun _ => .bind .expect fun _ => .pure

def identifierRecipe : Recipe identifier :=
  .bind .expect fun _ => .pure

def unaryRecipe (recipes : inner.Recipes) : Recipe (unary inner) :=
  .bind .advance fun _ => .bind (recipes.expression _) fun _ => .pure

def groupRecipe (recipes : inner.Recipes) : Recipe (group inner) :=
  .bind .advance fun _ => .bind (recipes.expression _) fun _ => .bind .expect fun _ => .pure

def conditionalRecipe (recipes : inner.Recipes) : Recipe (conditional inner) :=
  .bind .advance fun _ => .bind .expect fun _ => .bind (recipes.expression _) fun _ =>
    .bind .expect fun _ => .bind recipes.block fun _ => .bind .skip fun _ =>
      .either (.bind recipes.block fun _ => .pure) .pure

def functionRecipe (recipes : inner.Recipes) : Recipe (function inner) :=
  .bind .advance fun _ => .bind .expect fun _ => .bind (enclosedRecipe identifierRecipe) fun _ =>
    .bind recipes.block fun _ => .pure

def binaryRecipe {left : Expr} {power : Power} (recipes : inner.Recipes) :
    Recipe (binary inner left power) :=
  .bind .advance fun _ => .bind (recipes.expression _) fun _ => .pure

def callRecipe {callee : Expr} (recipes : inner.Recipes) : Recipe (call inner callee) :=
  .bind .advance fun _ => .bind (enclosedRecipe (recipes.expression _)) fun _ => .pure

def prefixRecipe (recipes : inner.Recipes) : (form : PrefixForm) → Recipe (form.read inner)
  | .atom => .atom
  | .unary => unaryRecipe recipes
  | .group => groupRecipe recipes
  | .conditional => conditionalRecipe recipes
  | .function => functionRecipe recipes

def infixRecipe {left : Expr} {power : Power} (recipes : inner.Recipes) :
    (form : InfixForm) → Recipe (form.read inner left power)
  | .binary => binaryRecipe recipes
  | .call => callRecipe recipes

def leadingRecipe (recipes : inner.Recipes) : Recipe (leading inner) :=
  .bind .state fun parser =>
    match parser.table.prefixForm parser.current.kind with
    | some form => prefixRecipe recipes form
    | none => .fail

def continuedRecipe {power : Power} {left : Expr} (recipes : inner.Recipes) :
    Recipe (continued inner power left) :=
  .bind .state fun parser =>
    match parser.table.infixRule parser.current.kind with
    | none => .pure
    | some rule => .either (.bind (infixRecipe recipes rule.form) fun _ => .pure) .pure

def expressionBodyRecipe {power : Power} (recipes : inner.Recipes) :
    Recipe (expressionBody inner power) :=
  .bind (leadingRecipe recipes) fun _ => .iterate fun _ => continuedRecipe recipes

def endingRecipe (recipes : inner.Recipes) : Recipe (ending inner) :=
  .bind (recipes.expression _) fun _ => .bind .skip fun _ => .pure

def expressionStatementRecipe (recipes : inner.Recipes) : Recipe (expressionStatement inner) :=
  .bind .state fun _ => .bind (endingRecipe recipes) fun _ => .pure

def statementRecipe (recipes : inner.Recipes) :
    (form : StatementForm) → Recipe (form.read inner)
  | .binding => .bind .advance fun _ => .bind identifierRecipe fun _ => .bind .expect fun _ =>
      .bind (endingRecipe recipes) fun _ => .pure
  | .result => .bind .advance fun _ => .bind (endingRecipe recipes) fun _ => .pure
  | .expression => expressionStatementRecipe recipes

def statementBodyRecipe (recipes : inner.Recipes) : Recipe (statementBody inner) :=
  .bind .state fun parser =>
    match parser.table.statementForm parser.current.kind with
    | some form => statementRecipe recipes form
    | none => expressionStatementRecipe recipes

def keepingRecipe {statements : Array Statement} : (statement : Option Statement) →
    Recipe (match statement with
      | some value => pure (.again (statements.push value))
      | none => pure (.again statements) : Routine (Round (Array Statement) (List Statement)))
  | some _ => .pure
  | none => .pure

def statementsUntilRecipe {ends : Kind → Bool} {statement : Routine Statement}
    (recipe : Recipe statement) : Recipe (statementsUntil ends statement) :=
  .iterate fun _ => .bind .state fun _ => .either .pure <|
    .bind (.recovering recipe) keepingRecipe

def blockBodyRecipe (recipes : inner.Recipes) : Recipe (blockBody inner) :=
  .bind .expect fun _ => .bind (statementsUntilRecipe (statementBodyRecipe recipes)) fun _ =>
    .bind .expect fun _ => .pure

def programBodyRecipe (recipes : inner.Recipes) : Recipe (programBody inner) :=
  .bind (statementsUntilRecipe (statementBodyRecipe recipes)) fun _ => .pure

def levelsRecipes : (count : Nat) → (levels count).Recipes
  | 0 => ⟨fun _ => .fail, .fail⟩
  | count + 1 =>
      ⟨fun _ => .nested (expressionBodyRecipe (levelsRecipes count)),
        .nested (blockBodyRecipe (levelsRecipes count))⟩

end Routine

/-- A promise about what was found wrong up to a token.  It is kept of each diagnostic where that
is found, and goes over from the parts of a run to the whole. -/
structure Accumulates (about : Parser → Prop) (promise : Parser → Nat → List Diagnostic → Prop) :
    Prop where
  beyond {parser : Parser} {count : Nat} {found : List Diagnostic} (holds : about parser) :
    about (parser.beyond count found)
  inside {parser : Parser} {depth : Nat} (holds : about parser) : about { parser with depth }
  outside {parser : Parser} {depth count : Nat} {found : List Diagnostic}
    (kept : promise { parser with depth } count found) : promise parser count found
  nil {parser : Parser} {count : Nat} : promise parser count []
  one {parser : Parser} {diagnostic : Diagnostic} (place : diagnostic.position = parser.position) :
    promise parser 0 [diagnostic]
  mono {parser : Parser} {count more : Nat} {found : List Diagnostic} (holds : about parser)
    (kept : promise parser count found) (le : count ≤ more) : promise parser more found
  append {parser : Parser} {count more : Nat} {found others : List Diagnostic}
    (holds : about parser) (kept : promise parser count found)
    (later : promise (parser.beyond count found) more others) :
    promise parser (count + more) (found ++ others)

/-- What was found wrong keeps a promise, and a routine that fails does so where it stopped. -/
def Contract.accumulates {α : Type} (promise : Parser → Nat → List Diagnostic → Prop)
    (parser : Parser) : Contract α where
  ok _ count found := promise parser count found
  failed diagnostic count found :=
    promise parser count found ∧ diagnostic.position = (parser.token count).span.start
  endless := True

namespace Accumulates

open Outcome

variable {α : Type} {about : Parser → Prop} {promise : Parser → Nat → List Diagnostic → Prop}
  {parser : Parser} {count : Nat} {found : List Diagnostic}

theorem rest {outcome : Outcome α} (accumulates : Accumulates about promise) (holds : about parser)
    (kept : promise parser count found)
    (met : outcome.Meets (parser.beyond count found)
      (.accumulates promise (parser.beyond count found))) :
    outcome.Meets (parser.beyond count found)
      ((Contract.accumulates promise parser).rest count found) := by
  refine met.mono (fun _ _ _ later => accumulates.append holds kept later) ?_ id
  intro diagnostic more others both
  obtain ⟨later, place⟩ := both
  exact ⟨accumulates.append holds kept later, by rwa [Parser.token_beyond] at place⟩

/-- The diagnostic of a routine that failed comes after all that was found before. -/
theorem snoc (accumulates : Accumulates about promise) (holds : about parser)
    (kept : promise parser count found) {diagnostic : Diagnostic}
    (place : diagnostic.position = (parser.token count).span.start) :
    promise parser count (found ++ [diagnostic]) := by
  have here : promise (parser.beyond count found) 0 [diagnostic] :=
    accumulates.one (by rwa [Parser.position, Parser.current_beyond])
  exact accumulates.append holds kept here

/-- However a routine is put together, what it finds wrong keeps the promise. -/
theorem meets {routine : Routine α} (accumulates : Accumulates about promise)
    (recipe : Recipe routine) (holds : about parser) :
    (routine parser).Meets parser (.accumulates promise parser) := by
  induction recipe generalizing parser with
  | pure => exact .pure accumulates.nil
  | state => exact Meets.pure accumulates.nil
  | fail => exact .fail ⟨accumulates.nil, rfl⟩
  | advance => exact .advance accumulates.nil
  | expect => exact .expect (fun _ => accumulates.nil) fun _ => ⟨accumulates.nil, rfl⟩
  | skip => exact .skip (fun _ => accumulates.nil) fun _ => accumulates.nil
  | atom =>
      rw [Routine.atom_apply]
      apply Meets.ok
      show promise parser 1 parser.current.excess
      unfold Token.excess
      split
      · exact accumulates.mono holds (accumulates.one rfl) (Nat.zero_le 1)
      · exact accumulates.nil
  | bind first later firstMeets laterMeets =>
      refine (firstMeets holds).bind (fun _ _ _ kept => kept) id ?_
      intro value count found kept
      exact accumulates.rest holds kept (laterMeets value (accumulates.beyond holds))
  | nested inside ih =>
      refine .nested (fun _ => ⟨accumulates.nil, rfl⟩) fun _ => ?_
      exact (ih (accumulates.inside holds)).mono (fun _ _ _ kept => accumulates.outside kept)
        (fun _ _ _ both => ⟨accumulates.outside both.1, both.2⟩) id
  | recovering inside ih =>
      refine (ih holds).recovering (fun _ _ _ kept => kept) ?_ id
      intro diagnostic count found both
      exact accumulates.mono holds (accumulates.snoc holds both.1 both.2) Parser.le_resumed
  | iterate each ih =>
      refine .iterate (fun _ count found => promise parser count found) ?_ accumulates.nil
      intro value count found kept
      refine (accumulates.rest holds kept (ih value (accumulates.beyond holds))).mono ?_
        (fun _ _ _ both => both) id
      intro decision more others both
      cases decision with
      | again next => exact ⟨.inr trivial, fun _ => both⟩
      | done result => exact both

end Accumulates

end Monkey
