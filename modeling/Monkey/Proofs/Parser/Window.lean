import Monkey.Proofs.Parser.SourceOrder
import Monkey.Proofs.Source.Slice
import Monkey.Proofs.Token.Concatenation
import Monkey.Proofs.Token.Lossless

namespace Monkey

/-! What a parser looks at.

The tokens that a parser has not consumed are those that its lexer gives when it is asked for
one after another.  So whatever is done to a parser, it looks at the same two tokens as a window
that reads the lexer two tokens ahead, once that has moved on by as many tokens as the parser
has consumed.
-/

/-- The token of a source with this number.  After the last one, the end of input, there is that
one again and again. -/
def nthToken (source : String) (file : Option String) (index : Nat) : Token :=
  (tokenize source file)[index]?.getD (Lexer.ofSource source file).finish

theorem nthToken_eq (source : String) (file : Option String) (index : Nat) :
    nthToken source file index = (Parser.ofSource source file).token index := by
  rw [nthToken, Parser.tokenize_eq, Parser.token]
  by_cases inside : index < (Parser.ofSource source file).pending.length
  · rw [List.getElem?_append_left inside]
    rfl
  · have outside := Nat.le_of_not_lt inside
    rw [List.getElem?_append_right outside, List.getElem?_eq_none outside, List.getElem?_singleton]
    split <;> rfl

section Starts

variable {source : String} {file : Option String} {first second : Nat}

/-- As far as an offset can be held, a token of a source starts before all later ones. -/
theorem nthToken_start_lt (small : source.utf8ByteSize ≤ Position.lastOffset)
    (present : (nthToken source file first).kind ≠ .endOfInput) (before : first < second) :
    (nthToken source file first).span.start.offset <
      (nthToken source file second).span.start.offset := by
  have standard := Parser.ofSource_standard source file
  have covers : Covers (file.getD Lexer.defaultFile) 0 source.toList
      (Parser.ofSource source file).pending := .scan ..
  rw [nthToken_eq] at present ⊢
  rw [nthToken_eq]
  have here := standard.lt_length present
  have this : (Parser.ofSource source file).token first =
      (Parser.ofSource source file).pending[first] := by
    simp [Parser.token, here]
  by_cases inside : second < (Parser.ofSource source file).pending.length
  · have other : (Parser.ofSource source file).token second =
        (Parser.ofSource source file).pending[second] := by
      simp [Parser.token, inside]
    have pairwise := List.pairwise_iff_getElem.1 (covers.pairwise (dropBytes_zero _))
    obtain ⟨start, later, apart, one, two⟩ := pairwise first second here inside before
    rw [this, other, one.start small, two.start small]
    exact apart
  · have finish : (Parser.ofSource source file).token second =
        .endOfInput (file.getD Lexer.defaultFile) source.utf8ByteSize := by
      rw [Parser.token, List.getElem?_eq_none (Nat.le_of_not_lt inside)]
      rfl
    obtain ⟨start, _, stands⟩ := covers.standsAt (dropBytes_zero _) _ (List.getElem_mem here)
    obtain ⟨rest, isLexeme⟩ := covers.isLexeme _ (List.getElem_mem here)
    have positive := isLexeme.size_pos
    have bound := stands.inside
    have last : (Token.endOfInput (file.getD Lexer.defaultFile)
        source.utf8ByteSize).span.start.offset = source.utf8ByteSize :=
      Position.clamp_natCast_of_le small
    rw [this, finish, last, stands.start small]
    exact Nat.lt_of_lt_of_le (Nat.lt_add_of_pos_right positive) bound

/-- Where a token of a source starts, no other one does. -/
theorem nthToken_start_injective (small : source.utf8ByteSize ≤ Position.lastOffset)
    (present : (nthToken source file first).kind ≠ .endOfInput)
    (same : (nthToken source file first).span.start = (nthToken source file second).span.start) :
    first = second := by
  rcases Nat.lt_trichotomy first second with before | equal | after
  · have less := nthToken_start_lt small present before
    exact absurd (congrArg Position.offset same) (Nat.ne_of_lt less)
  · exact equal
  · have standard := Parser.ofSource_standard source file
    rw [nthToken_eq] at present
    have earlier : (nthToken source file second).kind ≠ .endOfInput := by
      rw [nthToken_eq]
      exact standard.kind_ne_endOfInput (Nat.lt_trans after (standard.lt_length present))
    have less := nthToken_start_lt small earlier after
    exact absurd (congrArg Position.offset same.symm) (Nat.ne_of_lt less)

end Starts

theorem nextToken_split {file : String} {offset : Nat} {characters : List Char}
    {scanned : Scanned} (found : nextToken file offset characters = some scanned) :
    ∃ before, characters = before ++ scanned.rest ∧
      scanned.offset = offset + byteLength before := by
  unfold nextToken at found
  split at found
  · cases found
  · rename_i first rest begins
    cases found
    refine ⟨characters.takeWhile isGap ++ (Lexeme.read first rest).characters, ?_, ?_⟩
    · rw [List.append_assoc, Lexeme.read_append, ← begins, List.takeWhile_append_dropWhile]
    · rw [byteLength_append, Nat.add_assoc]

namespace Lexer

variable {lexer : Lexer} {tokens : List Token}

/-- A lexer gives the first of the tokens ahead, and then has the others ahead. -/
theorem token_of_tokens (ahead : lexer.tokens = some tokens) :
    ∃ after, lexer.token = some (tokens.headD lexer.finish, after) ∧
      after.tokens = some tokens.tail ∧ after.finish = lexer.finish := by
  obtain ⟨rest, begins, rfl⟩ := Option.map_eq_some_iff.1 ahead
  rw [scan_eq]
  simp only [token, begins, Option.bind_eq_bind, Option.bind_some]
  cases found : nextToken lexer.file lexer.offset rest with
  | none =>
      refine ⟨{ lexer with offset := lexer.source.utf8ByteSize }, rfl, ?_, rfl⟩
      have ends : dropBytes lexer.source.utf8ByteSize lexer.source.toList = some [] :=
        dropBytes_eq_some_iff.2 ⟨lexer.source.toList, by simp, byteLength_toList _⟩
      simp [Lexer.tokens, Lexer.ahead, ends, scan_nil]
  | some scanned =>
      obtain ⟨before, rfl, offset⟩ := nextToken_split found
      have later := dropBytes_append begins
      rw [← offset] at later
      refine ⟨{ lexer with offset := scanned.offset }, rfl, ?_, rfl⟩
      simp [Lexer.tokens, Lexer.ahead, later]

end Lexer

/-- Two tokens read from a lexer, which has the later ones ahead. -/
structure Window where
  lexer : Lexer
  current : Token
  peek : Token

namespace Window

def ofLexer (lexer : Lexer) : Option Window := do
  let (current, lexer) ← lexer.token
  let (peek, lexer) ← lexer.token
  return ⟨lexer, current, peek⟩

/-- Reads one more token, and lets go of the first one. -/
def advance (window : Window) : Option Window := do
  let (next, lexer) ← window.lexer.token
  return ⟨lexer, window.peek, next⟩

def steps : Nat → Window → Option Window
  | 0, window => some window
  | count + 1, window => do (← window.advance).steps count

/-- The window shows the tokens that the parser looks at, and its lexer has those ahead that
come after them. -/
structure Shows (window : Window) (parser : Parser) : Prop where
  current : window.current = parser.current
  peek : window.peek = parser.peek
  ahead : window.lexer.tokens = some (parser.pending.drop 2)
  finish : window.lexer.finish = parser.finish

theorem ofLexer_shows {lexer : Lexer} {parser : Parser}
    (made : Parser.ofLexer lexer = some parser) :
    ∃ window, ofLexer lexer = some window ∧ window.Shows parser := by
  obtain ⟨tokens, ahead, rfl⟩ := Option.map_eq_some_iff.1 made
  obtain ⟨second, first, rest, finish⟩ := Lexer.token_of_tokens ahead
  obtain ⟨third, next, later, last⟩ := Lexer.token_of_tokens rest
  have opened : ofLexer lexer =
      some ⟨third, tokens.headD lexer.finish, tokens.tail.headD second.finish⟩ := by
    simp only [ofLexer, first, next, Option.bind_eq_bind, Option.bind_some]
    rfl
  refine ⟨_, opened, ?_⟩
  constructor
  · simp [Parser.current, Parser.ofTokens, List.headD_eq_head?_getD, List.head?_eq_getElem?]
  · simp [Parser.peek, Parser.ofTokens, finish, List.headD_eq_head?_getD, List.head?_eq_getElem?]
  · rw [later, ← List.drop_one, ← List.drop_one, List.drop_drop]
    rfl
  · exact last.trans finish

namespace Shows

variable {window : Window} {parser : Parser}

/-- Only the tokens of a parser matter for what is shown of it. -/
theorem congr {other : Parser} (shows : window.Shows parser)
    (pending : other.pending = parser.pending) (finish : other.finish = parser.finish) :
    window.Shows other := by
  constructor
  · rw [shows.current, Parser.current, Parser.current, pending, finish]
  · rw [shows.peek, Parser.peek, Parser.peek, pending, finish]
  · rw [shows.ahead, pending]
  · rw [shows.finish, finish]

theorem advance (shows : window.Shows parser) :
    ∃ next, window.advance = some next ∧ next.Shows (parser.advance 1) := by
  obtain ⟨after, read, rest, finish⟩ := Lexer.token_of_tokens shows.ahead
  refine ⟨_, by rw [Window.advance, read]; rfl, ?_⟩
  constructor
  · exact shows.peek.trans (parser.current_advance_one).symm
  · simp [Parser.peek, Parser.advance, shows.finish, List.headD_eq_head?_getD,
      List.head?_eq_getElem?]
  · simpa [Parser.advance] using rest
  · exact finish.trans shows.finish

theorem steps (shows : window.Shows parser) (count : Nat) :
    ∃ last, window.steps count = some last ∧ last.Shows (parser.advance count) := by
  induction count generalizing window parser with
  | zero => exact ⟨window, rfl, shows⟩
  | succ count ih =>
      obtain ⟨next, moved, shown⟩ := shows.advance
      obtain ⟨last, run, shown⟩ := ih shown
      refine ⟨last, by rw [Window.steps, moved]; exact run, ?_⟩
      rwa [Parser.advance_advance, Nat.add_comm 1] at shown

end Shows

end Window

namespace Parser

variable {parser after : Parser}

/-- The parser looks at the tokens of the stream, from as many on as it has consumed. -/
structure Follows (parser : Parser) (stream : Nat → Token) : Prop where
  current : parser.current = stream parser.consumed
  peek : parser.peek = stream (parser.consumed + 1)

theorem Follows.setTable {stream : Nat → Token} (follows : parser.Follows stream) (table : Table) :
    (parser.setTable table).Follows stream :=
  ⟨follows.current, follows.peek⟩

/-- A parser that has consumed nothing looks at the tokens it was made with, wherever it is
moved from there. -/
theorem follows_replay {moves : List Move} (fresh : parser.consumed = 0) :
    (parser.replay moves).Follows parser.token := by
  have consumed : (parser.replay moves).consumed = moves.count .advance := by
    rw [replay_consumed, fresh, Nat.zero_add]
  constructor
  · rw [current_replay, consumed]
  · show (parser.replay moves).token 1 = parser.token ((parser.replay moves).consumed + 1)
    rw [token_replay, consumed]

/-- The later parser has consumed no less, and has recorded what the earlier one has, and perhaps
more after it. -/
structure Precedes (earlier later : Parser) : Prop where
  consumed : earlier.consumed ≤ later.consumed
  diagnostics : earlier.diagnostics.toList <+: later.diagnostics.toList

theorem Precedes.setTable (precedes : parser.Precedes after) (table : Table) :
    parser.Precedes (after.setTable table) :=
  ⟨precedes.consumed, precedes.diagnostics⟩

theorem precedes_replay {moves : List Move} : parser.Precedes (parser.replay moves) :=
  ⟨replay_consumed ▸ Nat.le_add_right .., diagnostics_replay⟩

/-- A parser can be made wherever a character of a source starts, and at the end. -/
theorem exists_ofLexer {source : String} {offset : Nat} {rest : List Char} (file : Option String)
    (boundary : dropBytes offset source.toList = some rest) :
    ∃ parser, ofLexer ((Lexer.ofSource source file).advance offset) = some parser ∧
      parser.consumed = 0 := by
  refine ⟨.ofTokens (scan (file.getD Lexer.defaultFile) (0 + offset) rest)
    (Lexer.ofSource source file).finish, ?_, rfl⟩
  simp [ofLexer, Lexer.tokens, Lexer.ahead, Lexer.ofSource, Lexer.advance, Lexer.finish, boundary]

/-- A parser that starts inside a source sees the tokens of what is left of it. -/
theorem token_of_ofLexer {source : String} {file : Option String} {offset : Nat}
    {rest : List Char} (boundary : dropBytes offset source.toList = some rest)
    (made : ofLexer ((Lexer.ofSource source file).advance offset) = some parser) (index : Nat) :
    parser.token index =
      (nthToken (String.ofList rest) file index).relocate (·.shift offset) := by
  obtain ⟨others, ahead, rfl⟩ := eq_of_ofLexer made
  obtain rfl : rest = others := by
    simpa [Lexer.ahead, Lexer.ofSource, Lexer.advance, boundary] using ahead
  have size := byteLength_of_dropBytes boundary
  rw [byteLength_eq_utf8ByteSize, Nat.add_comm] at size
  have pending : scan (file.getD Lexer.defaultFile) (0 + offset) rest =
      (scan (file.getD Lexer.defaultFile) 0 rest).map (·.relocate (·.shift offset)) :=
    scan_shift _ _ _ _
  have finish : Token.endOfInput (file.getD Lexer.defaultFile) source.utf8ByteSize =
      (Token.endOfInput (file.getD Lexer.defaultFile)
        (String.ofList rest).utf8ByteSize).relocate (·.shift offset) := by
    rw [Token.relocate_endOfInput, size]
  show (scan (file.getD Lexer.defaultFile) (0 + offset) rest)[index]?.getD
    (.endOfInput (file.getD Lexer.defaultFile) source.utf8ByteSize) = _
  rw [pending, finish, List.getElem?_map, Option.getD_map, nthToken_eq, token, ofSource,
    String.toList_ofList]
  rfl

end Parser

/-- A parser looks at the tokens of its source from where its lexer stands, as many on as it has
consumed, at every moment of whatever it is asked to do.  These are the tokens of a window on the
lexer that was moved on as often.  The count never falls, and what was recorded stays. -/
theorem window_follows {source : String} {file : Option String} {offset : Nat} {rest : List Char}
    (boundary : dropBytes offset source.toList = some rest) :
    ∃ parser, Parser.ofLexer ((Lexer.ofSource source file).advance offset) = some parser ∧
      ∀ operations middle, parser.perform operations = some middle →
        (middle.Follows fun index =>
          (nthToken (String.ofList rest) file index).relocate (·.shift offset)) ∧
        (∃ window, (Window.ofLexer ((Lexer.ofSource source file).advance offset)).bind
            (·.steps middle.consumed) = some window ∧
          window.current = middle.current ∧ window.peek = middle.peek) ∧
        (∀ later after, middle.perform later = some after → middle.Precedes after) ∧
        ∀ (call : Call) past more, past ++ more <+: call.moves middle →
          ((middle.replay past).Follows fun index =>
            (nthToken (String.ofList rest) file index).relocate (·.shift offset)) ∧
          (middle.replay past).Precedes (middle.replay (past ++ more)) := by
  obtain ⟨parser, made, fresh⟩ := Parser.exists_ofLexer file boundary
  refine ⟨parser, made, ?_⟩
  rw [← funext (Parser.token_of_ofLexer boundary made)]
  intro operations middle performed
  obtain ⟨moves, table, rfl⟩ := Parser.moves_of_perform performed
  refine ⟨(Parser.follows_replay fresh).setTable table, ?_, ?_, ?_⟩
  · obtain ⟨first, opened, shown⟩ := Window.ofLexer_shows made
    obtain ⟨last, moved, shown⟩ := shown.steps (moves.count .advance)
    have steps : (parser.replay moves).consumed = moves.count .advance := by
      rw [Parser.replay_consumed, fresh, Nat.zero_add]
    have shown := shown.congr Parser.replay_pending Parser.replay_finish
    refine ⟨last, ?_, shown.current, shown.peek⟩
    show (Window.ofLexer _).bind (·.steps (parser.replay moves).consumed) = some last
    rw [steps, opened]
    exact moved
  · intro later after performed
    obtain ⟨others, last, rfl⟩ := Parser.moves_of_perform performed
    exact Parser.precedes_replay.setTable last
  · intro call past more part
    rw [Parser.replay_append]
    refine ⟨?_, Parser.precedes_replay⟩
    rw [Parser.replay_setTable, ← Parser.replay_append]
    exact (Parser.follows_replay fresh).setTable table

theorem window_follows_inside :
    dropBytes 2 "é; let x".toList = some "; let x".toList ∧
      ∃ parser middle, Parser.ofLexer ((Lexer.ofSource "é; let x" none).advance 2) = some parser ∧
        parser.perform [.call .statementOrSkip, .advance] = some middle ∧ middle.consumed = 2 ∧
        middle.current = ⟨.identifier, "x", .between "shell" 8 9⟩ ∧
        middle.peek = .endOfInput "shell" 9 := by
  have boundary : dropBytes 2 "é; let x".toList = some "; let x".toList := by decide +kernel
  obtain ⟨parser, made, follows⟩ := @window_follows _ none _ _ boundary
  have consumed : (Parser.ofLexer ((Lexer.ofSource "é; let x" none).advance 2)).bind
      (fun parser => (parser.perform [.call .statementOrSkip, .advance]).map (·.consumed)) =
        some 2 := by
    decide +kernel
  rw [made] at consumed
  obtain ⟨middle, performed, consumed⟩ := Option.map_eq_some_iff.1 consumed
  obtain ⟨⟨current, peek⟩, _⟩ := follows _ middle performed
  rw [consumed] at current peek
  refine ⟨boundary, parser, middle, made, performed, consumed, ?_, ?_⟩
  · rw [current, String.ofList_toList]
    decide +kernel
  · rw [peek, String.ofList_toList]
    decide +kernel

end Monkey
