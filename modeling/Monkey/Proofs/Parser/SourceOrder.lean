import Monkey.Proofs.Parser.Progress
import Monkey.Proofs.Parser.Session
import Monkey.Proofs.Token.Order

namespace Monkey

/-! What is found wrong is recorded in the order of the source.

A diagnostic is recorded at the token just read or at the cursor, or handed back at the
cursor and recorded there.  So what was recorded lies behind the cursor, and what will be
lies ahead of it.
-/

namespace Parser

variable {parser : Parser} {index count more : Nat} {found others : List Diagnostic}

/-- Where the token with this number starts. -/
def start (parser : Parser) (index : Nat) : Nat :=
  (parser.token index).span.start.offset

@[simp] theorem start_beyond :
    (parser.beyond count found).start index = parser.start (count + index) := by
  rw [start, token_beyond, start]

/-- No token starts before the one in front of it. -/
def Ordered (parser : Parser) : Prop :=
  ∀ first second, first ≤ second → parser.start first ≤ parser.start second

theorem Ordered.beyond (ordered : parser.Ordered) : (parser.beyond count found).Ordered := by
  intro first second le
  rw [start_beyond, start_beyond]
  exact ordered _ _ (Nat.add_le_add_left le count)

/-- What was found wrong up to the token with this number lies in order between where the
parse began and that token. -/
structure Found (parser : Parser) (count : Nat) (found : List Diagnostic) : Prop where
  inOrder : found.Pairwise fun first second => first.position.offset ≤ second.position.offset
  ahead : ∀ diagnostic ∈ found, parser.start 0 ≤ diagnostic.position.offset
  behind : ∀ diagnostic ∈ found, diagnostic.position.offset ≤ parser.start count

namespace Found

theorem nil : parser.Found count [] := by
  constructor <;> simp

theorem mono (held : parser.Found count found) (ordered : parser.Ordered) (le : count ≤ more) :
    parser.Found more found :=
  ⟨held.inOrder, held.ahead, fun diagnostic member =>
    Nat.le_trans (held.behind diagnostic member) (ordered _ _ le)⟩

theorem append (held : parser.Found count found) (ordered : parser.Ordered)
    (later : (parser.beyond count found).Found more others) :
    parser.Found (count + more) (found ++ others) := by
  have ahead := later.ahead
  have behind := later.behind
  simp only [start_beyond, Nat.add_zero] at ahead behind
  refine ⟨List.pairwise_append.2 ⟨held.inOrder, later.inOrder, ?_⟩, ?_, ?_⟩
  · intro first early second late
    exact Nat.le_trans (held.behind first early) (ahead second late)
  · intro diagnostic member
    rcases List.mem_append.1 member with early | late
    · exact held.ahead diagnostic early
    · exact Nat.le_trans (ordered _ _ (Nat.zero_le count)) (ahead diagnostic late)
  · intro diagnostic member
    rcases List.mem_append.1 member with early | late
    · exact (held.mono ordered (Nat.le_add_right count more)).behind diagnostic early
    · exact behind diagnostic late

/-- What is wrong with the current token is found before any other is consumed. -/
theorem one {diagnostic : Diagnostic} (place : diagnostic.position = parser.position) :
    parser.Found 0 [diagnostic] := by
  have offset : diagnostic.position.offset = parser.start 0 := congrArg Position.offset place
  constructor <;> simp [offset]

theorem outside {depth : Nat} (held : ({ parser with depth } : Parser).Found count found) :
    parser.Found count found :=
  ⟨held.inOrder, held.ahead, held.behind⟩

theorem accumulates : Accumulates Ordered Found where
  beyond := Ordered.beyond
  inside := id
  outside := outside
  nil := nil
  one := one
  mono ordered held le := held.mono ordered le
  append ordered held later := held.append ordered later

end Found

end Parser

namespace Contract

def ordered {α : Type} (parser : Parser) : Contract α where
  ok _ count found := parser.Found count found
  failed diagnostic count found :=
    parser.Found count found ∧ diagnostic.position = (parser.token count).span.start
  endless := True

end Contract

/-- However a routine is put together, what it records is in the order of the source. -/
theorem Recipe.ordered {α : Type} {routine : Routine α} (recipe : Recipe routine) {parser : Parser}
    (ordered : parser.Ordered) : (routine parser).Meets parser (.ordered parser) :=
  Parser.Found.accumulates.meets recipe ordered

namespace Call

open Outcome

/-- Whatever a parser is asked to read, it records what it finds wrong in order. -/
theorem run_found (call : Call) {parser : Parser} (standard : parser.Standard)
    (ordered : parser.Ordered) :
    ∃ count found, (call.run parser).after? = some (parser.beyond count found) ∧
      parser.Found count found := by
  have met : (call.run parser).Meets parser (.ordered parser) :=
    (call.recipe (Routine.levelsRecipes _)).ordered ordered
  have ends := (call.run_ends standard).ne_endless
  generalize call.run parser = outcome at met ends ⊢
  cases met with
  | ok held => exact ⟨_, _, rfl, held⟩
  | failed kept => exact ⟨_, _, rfl, kept.1⟩
  | endless => exact absurd rfl ends

end Call

namespace Parser

variable {parser : Parser}

theorem Ordered.of_pending
    (inOrder : parser.pending.Pairwise fun first second =>
      first.span.start.offset ≤ second.span.start.offset)
    (inside : ∀ token ∈ parser.pending,
      token.span.start.offset ≤ parser.finish.span.start.offset) : parser.Ordered := by
  intro first second le
  rw [start, start, token, token]
  by_cases secondInside : second < parser.pending.length
  · have firstInside := Nat.lt_of_le_of_lt le secondInside
    rw [List.getElem?_eq_getElem firstInside, List.getElem?_eq_getElem secondInside]
    rcases Nat.eq_or_lt_of_le le with rfl | before
    · exact Nat.le_refl _
    · exact List.pairwise_iff_getElem.1 inOrder _ _ firstInside secondInside before
  · rw [List.getElem?_eq_none (Nat.le_of_not_lt secondInside)]
    by_cases firstInside : first < parser.pending.length
    · rw [List.getElem?_eq_getElem firstInside]
      exact inside _ (List.getElem_mem firstInside)
    · simp only [List.getElem?_eq_none (Nat.le_of_not_lt firstInside), Nat.le_refl]

theorem ofLexer_ordered {lexer : Lexer} (made : ofLexer lexer = some parser) :
    parser.Ordered := by
  obtain ⟨rest, ahead, rfl⟩ := eq_of_ofLexer made
  obtain ⟨before, whole, offset⟩ := dropBytes_eq_some_iff.1 ahead
  have length := congrArg byteLength whole
  rw [byteLength_toList, byteLength_append, offset] at length
  refine .of_pending (scan_pairwise _ _ _) ?_
  intro token member
  have upper := (scan_start_mem _ _ _ token member).2
  rwa [← length] at upper

/-- What a parser finds wrong while it reads one thing after another. -/
theorem perform_calls (standard : parser.Standard) (ordered : parser.Ordered)
    (calls : List Call) :
    ∃ count found, parser.perform (calls.map .call) = some (parser.beyond count found) ∧
      parser.Found count found := by
  induction calls generalizing parser with
  | nil => exact ⟨0, [], by rw [beyond_zero]; rfl, .nil⟩
  | cons call calls ih =>
      obtain ⟨count, found, run, held⟩ := call.run_found standard ordered
      obtain ⟨more, others, rest, later⟩ := ih standard.beyond ordered.beyond
      refine ⟨count + more, found ++ others, ?_, held.append ordered later⟩
      rw [← beyond_beyond, ← rest]
      exact congrArg (· >>= fun after => after.perform (calls.map .call)) run

end Parser

/-- A parser of the language records what it finds wrong in the order of the source.  However
much it was asked to read before, what it recorded then comes first, and nothing it recorded
lies beyond the token it has come to. -/
theorem diagnostics_in_order :
    (∀ source file, ∃ program after, parse source file = .ok program after ∧
      after.diagnostics.toList.Pairwise fun first second =>
        first.position.offset ≤ second.position.offset) ∧
    (∀ lexer parser, Parser.ofLexer lexer = some parser → ∀ earlier later : List Call,
      ∃ middle after, parser.perform (earlier.map .call) = some middle ∧
        middle.perform (later.map .call) = some after ∧
        middle.diagnostics.toList <+: after.diagnostics.toList ∧
        (after.diagnostics.toList.Pairwise fun first second =>
          first.position.offset ≤ second.position.offset) ∧
        ∀ diagnostic ∈ after.diagnostics,
          diagnostic.position.offset ≤ after.position.offset) := by
  constructor
  · intro source file
    have made := Parser.ofLexer_ofSource source file
    obtain ⟨program, count, found, parsed, _⟩ :=
      (parse_certain source file).succeeds (fun _ _ _ => id) id
    obtain ⟨_, others, run, held⟩ :=
      Call.program.run_found (Parser.ofLexer_standard made) (Parser.ofLexer_ordered made)
    rw [Call.run_program, ← parse, parsed] at run
    obtain ⟨_, rfl⟩ := Parser.beyond_injective (Option.some.inj run)
    refine ⟨program, _, parsed, ?_⟩
    rw [Parser.beyond_diagnostics]
    exact held.inOrder
  · intro lexer parser made earlier later
    have ordered := Parser.ofLexer_ordered made
    have standard := Parser.ofLexer_standard made
    obtain ⟨count, found, first, held⟩ := Parser.perform_calls standard ordered earlier
    obtain ⟨more, others, second, rest⟩ :=
      Parser.perform_calls standard.beyond ordered.beyond later
    have whole := held.append ordered rest
    have nothing : parser.diagnostics = #[] := by
      obtain ⟨_, _, rfl⟩ := Parser.eq_of_ofLexer made
      rfl
    refine ⟨_, _, first, second, ?_, ?_, ?_⟩
    · simp only [Parser.beyond_diagnostics, List.append_assoc]
      exact ⟨others, by simp⟩
    · rw [Parser.beyond_beyond, Parser.beyond_diagnostics, nothing]
      exact whole.inOrder
    · intro diagnostic member
      rw [Parser.beyond_beyond] at member ⊢
      rw [Array.mem_def, Parser.beyond_diagnostics, nothing] at member
      have behind := whole.behind diagnostic member
      rwa [Parser.position, Parser.current_beyond]

theorem diagnostics_in_order_moved :
    ∃ parser middle after,
      Parser.ofLexer ((Lexer.ofSource "x; ) let 1" none).advance 3) = some parser ∧
      parser.perform [.call .statementOrSkip] = some middle ∧
      middle.perform [.call .program] = some after ∧
      middle.diagnostics.toList <+: after.diagnostics.toList ∧
      after.diagnostics.toList.Pairwise fun first second =>
        first.position.offset ≤ second.position.offset := by
  cases made : Parser.ofLexer ((Lexer.ofSource "x; ) let 1" none).advance 3) with
  | none =>
      have readable :
          (Parser.ofLexer ((Lexer.ofSource "x; ) let 1" none).advance 3)).isSome = true := by
        decide +kernel
      rw [made] at readable
      cases readable
  | some parser =>
      obtain ⟨middle, after, first, second, kept, inOrder, _⟩ :=
        diagnostics_in_order.2 _ parser made [.statementOrSkip] [.program]
      exact ⟨parser, middle, after, rfl, first, second, kept, inOrder⟩

end Monkey
