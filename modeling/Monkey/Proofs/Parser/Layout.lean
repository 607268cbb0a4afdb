import Monkey.Proofs.Parser.Progress
import Monkey.Proofs.Parser.Recipe
import Monkey.Proofs.Parser.Relocation
import Monkey.Proofs.Tree.Alike

namespace Monkey

/-! How a source is laid out does not matter for how it is parsed.

Tokens that are alike are the same numbered tokens put in different places.  What is found wrong
with numbered tokens is found at the number of one of them, and moves with it.
-/

/-- The span of a token that stands at its number. -/
def Span.numbered (index : Nat) : Span :=
  ⟨⟨2 * index, ""⟩, ⟨2 * index + 1, ""⟩⟩

theorem Span.numbered_injective {first second : Nat}
    (same : (Span.numbered first).start = (Span.numbered second).start) : first = second :=
  Nat.eq_of_mul_eq_mul_left Nat.two_pos (congrArg Position.offset same)

/-- The tokens put at their numbers. -/
def numbered (tokens : List Token) : List Token :=
  tokens.mapIdx fun index token => { token with span := .numbered index }

/-- Where the tokens really stand that were put at their numbers. -/
def place (tokens : List Token) (position : Position) : Position :=
  match tokens[position.offset / 2]? with
  | none => position
  | some token => if position.offset % 2 = 0 then token.span.start else token.span.stop

section Numbers

variable {tokens others : List Token}

theorem relocate_numbered_span {index : Nat} {token : Token} (found : tokens[index]? = some token) :
    (Span.numbered index).relocate (place tokens) = token.span := by
  have even : 2 * index / 2 = index := by omega
  have odd : (2 * index + 1) / 2 = index := by omega
  simp [Span.numbered, Span.relocate, place, even, odd, found]

theorem place_start {index : Nat} {token : Token} (found : tokens[index]? = some token) :
    place tokens (Span.numbered index).start = token.span.start :=
  congrArg Span.start (relocate_numbered_span found)

theorem relocate_numbered : (numbered tokens).map (·.relocate (place tokens)) = tokens := by
  refine List.ext_getElem? fun index => ?_
  rw [List.getElem?_map, numbered, List.getElem?_mapIdx]
  cases found : tokens[index]? with
  | none => rfl
  | some token => simp [Token.relocate, relocate_numbered_span found]

/-- Tokens that are alike have the same numbered tokens. -/
theorem numbered_eq_of_alike (alike : tokensAlike tokens others = true) :
    numbered tokens = numbered others := by
  refine List.ext_getElem? fun index => ?_
  have same := congrArg (·[index]?) (tokensAlike_iff.1 alike)
  simp only [List.getElem?_map] at same
  rw [numbered, numbered, List.getElem?_mapIdx, List.getElem?_mapIdx]
  cases first : tokens[index]? <;> cases second : others[index]? <;> simp_all

end Numbers

namespace Parser

variable {parser : Parser} {count : Nat} {found : List Diagnostic} {position : Position}

/-- The parser with its tokens put at their numbers, the end of input last. -/
def numbered (parser : Parser) : Parser :=
  ofTokens (Monkey.numbered parser.pending)
    { parser.finish with span := .numbered parser.pending.length }

theorem numbered_stream :
    parser.numbered.pending ++ [parser.numbered.finish] =
      Monkey.numbered (parser.pending ++ [parser.finish]) := by
  simp [numbered, ofTokens, Monkey.numbered, List.mapIdx_append]

theorem numbered_eq_of_stream {other : Parser}
    (same : Monkey.numbered (parser.pending ++ [parser.finish]) =
      Monkey.numbered (other.pending ++ [other.finish])) : parser.numbered = other.numbered := by
  rw [← numbered_stream, ← numbered_stream] at same
  obtain ⟨pending, finish⟩ := List.append_inj' same rfl
  have finishes := List.singleton_inj.1 finish
  simp only [numbered, ofTokens] at pending finishes ⊢
  rw [pending, finishes]

theorem relocate_numbered_ofSource (source : String) (file : Option String) :
    (ofSource source file).numbered.relocate ⟨place (tokenize source file), 0, []⟩ =
      ofSource source file := by
  have stream : ((ofSource source file).numbered.pending ++
      [(ofSource source file).numbered.finish]).map (·.relocate (place (tokenize source file))) =
        tokenize source file := by
    rw [numbered_stream, ← tokenize_eq]
    exact relocate_numbered
  rw [List.map_append, tokenize_eq] at stream
  obtain ⟨pending, finish⟩ := List.append_inj' stream rfl
  have finishes := List.singleton_inj.1 finish
  simp only [relocate, tokenize_eq, pending, finishes]
  rfl

/-- One of the tokens from the current one on starts here. -/
def Begins (parser : Parser) (position : Position) : Prop :=
  ∃ index, position = (parser.token index).span.start

theorem Begins.of_beyond (begins : (parser.beyond count found).Begins position) :
    parser.Begins position := by
  obtain ⟨index, rfl⟩ := begins
  exact ⟨count + index, by rw [token_beyond]⟩

end Parser

/-- What is found wrong is found at the start of a token. -/
theorem Parser.Begins.accumulates : Accumulates (fun _ => True) fun parser _ found =>
    ∀ diagnostic ∈ found, parser.Begins diagnostic.position where
  beyond _ := trivial
  inside _ := trivial
  outside kept := kept
  nil := by simp
  one place := by simpa using ⟨0, place⟩
  mono _ kept _ := kept
  append _ kept later := List.forall_mem_append.2
    ⟨kept, fun diagnostic member => (later diagnostic member).of_beyond⟩

theorem Routine.programBody_begins (count : Nat) (parser : Parser) :
    (programBody (levels count) parser).Meets parser (.accumulates (fun parser _ found =>
      ∀ diagnostic ∈ found, parser.Begins diagnostic.position) parser) :=
  Parser.Begins.accumulates.meets (programBodyRecipe (levelsRecipes count)) trivial

theorem Parser.Begins.stands {parser : Parser} {position : Position}
    (begins : parser.numbered.Begins position) :
    ∃ index token, (parser.pending ++ [parser.finish])[index]? = some token ∧
      position = (Span.numbered index).start := by
  obtain ⟨index, rfl⟩ := begins
  rw [Parser.token]
  cases inside : parser.pending[index]? with
  | some token =>
      refine ⟨index, token, ?_, ?_⟩
      · obtain ⟨lt, _⟩ := List.getElem?_eq_some_iff.1 inside
        rwa [List.getElem?_append_left lt]
      · simp [Parser.numbered, Parser.ofTokens, Monkey.numbered, inside]
  | none =>
      refine ⟨parser.pending.length, parser.finish, by simp, ?_⟩
      simp [Parser.numbered, Parser.ofTokens, Monkey.numbered, inside]

/-- What was found wrong in either of two sources was found for the same cause and at the
token with the same number. -/
def Diagnostic.Corresponds (tokens others : List Token) (first second : Diagnostic) : Prop :=
  first.cause = second.cause ∧ ∃ (index : Nat) (token other : Token),
    tokens[index]? = some token ∧ others[index]? = some other ∧
    first.position = token.span.start ∧ second.position = other.span.start

/-- A source is parsed like its numbered tokens, with everything put where its token stands. -/
theorem parse_numbered (source : String) (file : Option String) :
    ∃ program count found after,
      Routine.programBody (Routine.levels nestingLimit) (Parser.ofSource source file).numbered =
        .ok program ((Parser.ofSource source file).numbered.beyond count found) ∧
      (∀ diagnostic ∈ found, (Parser.ofSource source file).numbered.Begins diagnostic.position) ∧
      parse source file = .ok (program.relocate (place (tokenize source file))) after ∧
      after.diagnostics.toList = found.map (·.relocate (place (tokenize source file))) := by
  have carried : parse source file = _ :=
    (congrArg (Routine.programBody _) (Parser.relocate_numbered_ofSource source file)).symm.trans
      (Routine.programBody_carries (Routine.levels_carries nestingLimit) _)
  obtain ⟨_, _, _, parsed, _⟩ := (parse_certain source file).succeeds (fun _ _ _ => id) id
  have placed := Routine.programBody_begins nestingLimit (Parser.ofSource source file).numbered
  rw [carried] at parsed
  generalize Routine.programBody _ (Parser.ofSource source file).numbered = outcome
    at carried parsed placed ⊢
  cases placed with
  | @ok program count found begin =>
      refine ⟨program, count, found, _, rfl, begin, carried, ?_⟩
      simp [Parser.relocate, Parser.beyond, Parser.numbered, Parser.ofTokens]
  | failed => cases parsed
  | endless => cases parsed

/-- Sources whose tokens are alike are parsed alike, however they are laid out and named.  They
have the same text, and the same is found wrong at the same tokens. -/
theorem parse_alike {source other : String} {file otherFile : Option String}
    (alike : tokensAlike (tokenize source file) (tokenize other otherFile) = true) :
    ∃ program after program' after',
      parse source file = .ok program after ∧ parse other otherFile = .ok program' after' ∧
      program.alike program' = true ∧ program.text = program'.text ∧
      after.diagnostics.size = after'.diagnostics.size ∧
      ∀ (index : Nat) (first second : Diagnostic), after.diagnostics[index]? = some first →
        after'.diagnostics[index]? = some second →
        first.Corresponds (tokenize source file) (tokenize other otherFile) second := by
  have same : (Parser.ofSource source file).numbered = (Parser.ofSource other otherFile).numbered :=
    Parser.numbered_eq_of_stream (numbered_eq_of_alike alike)
  obtain ⟨program, count, found, after, run, begin, parsed, diagnostics⟩ :=
    parse_numbered source file
  obtain ⟨_, _, _, after', run', begin', parsed', diagnostics'⟩ := parse_numbered other otherFile
  -- Both sources have the same numbered tokens, so there is one run to speak of.
  rw [← same, run] at run'
  injection run' with programs parsers
  obtain ⟨-, rfl⟩ := Parser.beyond_injective parsers
  subst programs
  have trees := program.relocate_alike (place (tokenize source file))
    (place (tokenize other otherFile))
  refine ⟨_, after, _, after', parsed, parsed', trees, Program.text_eq_of_alike trees, ?_, ?_⟩
  · rw [← Array.length_toList, ← Array.length_toList, diagnostics, diagnostics',
      List.length_map, List.length_map]
  · intro index first second one two
    rw [← Array.getElem?_toList, diagnostics, List.getElem?_map] at one
    rw [← Array.getElem?_toList, diagnostics', List.getElem?_map] at two
    obtain ⟨diagnostic, member, rfl⟩ := Option.map_eq_some_iff.1 one
    obtain ⟨_, again, rfl⟩ := Option.map_eq_some_iff.1 two
    rw [member] at again
    cases again
    obtain ⟨number, token, there, position⟩ := (begin _ (List.mem_of_getElem? member)).stands
    obtain ⟨number', token', there', position'⟩ :=
      (begin' _ (List.mem_of_getElem? member)).stands
    obtain rfl := Span.numbered_injective (position.symm.trans position')
    refine ⟨rfl, number, token, token', there, there', ?_, ?_⟩
    · exact (congrArg (place _) position).trans (place_start there)
    · exact (congrArg (place _) position').trans (place_start there')

theorem parse_alike_spread :
    tokensAlike (tokenize "let x=;(1+y" none)
        (tokenize "let  x\n= ;\r\n\t( 1 + y " (some "y.monkey")) = true ∧
      ∃ program after program' after',
        parse "let x=;(1+y" none = .ok program after ∧
        parse "let  x\n= ;\r\n\t( 1 + y " (some "y.monkey") = .ok program' after' ∧
        program.alike program' = true ∧ program.text = program'.text ∧
        after.diagnostics.size = after'.diagnostics.size ∧
        ∀ (index : Nat) (first second : Diagnostic), after.diagnostics[index]? = some first →
          after'.diagnostics[index]? = some second →
          first.Corresponds (tokenize "let x=;(1+y" none)
            (tokenize "let  x\n= ;\r\n\t( 1 + y " (some "y.monkey")) second := by
  have alike : tokensAlike (tokenize "let x=;(1+y" none)
      (tokenize "let  x\n= ;\r\n\t( 1 + y " (some "y.monkey")) = true := by
    decide +kernel
  exact ⟨alike, parse_alike alike⟩

end Monkey
