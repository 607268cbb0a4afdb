import Mathlib.Data.List.TakeWhile
import Monkey.Proofs.Parser.Progress
import Monkey.Proofs.Parser.Window

namespace Monkey

/-! The cursor of a lexer.

A cursor is moved by numbers of bytes, and the source is cut where it stands.  A cut fails past
the end and inside a character.  From a place where a character starts, no cut fails and the
cursor ends up at such a place again, so that reading can go on until the source is used up.
-/

namespace Lexer

variable {lexer after : Lexer} {token : Token} {rest others : List Char} {first : Char}

/-- The cursor stands where a character starts or the source ends. -/
def OnBoundary (lexer : Lexer) : Prop :=
  (⟨lexer.offset⟩ : String.Pos.Raw).IsValid lexer.source

theorem onBoundary_iff : lexer.OnBoundary ↔ ∃ rest, lexer.ahead = some rest := by
  rw [OnBoundary, String.Pos.Raw.isValid_iff_exists_append]
  simp only [ahead, dropBytes_eq_some_iff]
  constructor
  · rintro ⟨before, behind, whole, place⟩
    refine ⟨behind.toList, before.toList, ?_, ?_⟩
    · rw [whole, String.toList_append]
    · rw [byteLength_toList]
      exact (congrArg String.Pos.Raw.byteIdx place).symm
  · rintro ⟨behind, before, whole, place⟩
    refine ⟨String.ofList before, String.ofList behind, ?_, ?_⟩
    · rw [← String.ofList_append, ← whole, String.ofList_toList]
    · rw [← place, byteLength_eq_utf8ByteSize]
      rfl

/-! ### Reading by cutting -/

/-- The kind of a character that is no letter and no digit.  Only signs look at the next one. -/
def symbol (lexer : Lexer) : (first : Char) → Option Kind
  | '=' => lexer.nextCharacter.map fun next => if next = some '=' then .equals else .assignment
  | '!' => lexer.nextCharacter.map fun next => if next = some '=' then .notEquals else .not
  | first => some (Kind.ofSymbol first)

/-- The kind and the number of bytes of the lexeme at the cursor, which starts with this
character. -/
def measure (lexer : Lexer) (first : Char) : Option (Kind × Nat) := do
  let word := (← lexer.ahead).takeWhile isWordCharacter
  let digits := (← lexer.ahead).takeWhile Char.isDigit
  if word ≠ [] then return (Kind.ofWord (String.ofList word), byteLength word)
  else if digits ≠ [] then return (.integer, byteLength digits)
  else
    let kind ← lexer.symbol first
    return (kind, if kind = .equals ∨ kind = .notEquals then 2 else first.utf8Size)

/-- Reads a token by moving the cursor over the gaps and over as many bytes as the lexeme has.
All that is known of the source is cut out of it at the cursor. -/
def cut (lexer : Lexer) : Option (Token × Lexer) := do
  let start := lexer.advance (byteLength ((← lexer.ahead).takeWhile isGap))
  match ← start.character with
  | none => return (.endOfInput start.file start.offset, start)
  | some first =>
      let (kind, length) ← start.measure first
      let after := start.advance length
      let text ← slice start.source start.offset after.offset
      return (⟨kind, text, .between start.file start.offset after.offset⟩, after)

theorem nextCharacter_eq (begins : lexer.ahead = some (first :: others)) :
    lexer.nextCharacter = some others.head? := by
  simp [nextCharacter, begins, List.head?_eq_getElem?]

theorem symbol_single (begins : lexer.ahead = some (first :: others))
    (single : first = '=' ∨ first = '!' → ∀ c ∈ others.head?, c ≠ '=') :
    lexer.symbol first = some (Kind.ofSymbol first) := by
  have next := nextCharacter_eq begins
  unfold symbol
  split
  · have other : others.head? ≠ some '=' := fun same => single (.inl rfl) '=' same rfl
    rw [next, Option.map_some, if_neg other]
    rfl
  · have other : others.head? ≠ some '=' := fun same => single (.inr rfl) '=' same rfl
    rw [next, Option.map_some, if_neg other]
    rfl
  · rfl

theorem ofSymbol_not_pair (c : Char) :
    ¬ (Kind.ofSymbol c = .equals ∨ Kind.ofSymbol c = .notEquals) := by
  unfold Kind.ofSymbol
  split <;> simp

/-- What is measured is the lexeme that the text ahead starts with. -/
theorem measure_eq (begins : lexer.ahead = some (first :: others)) :
    lexer.measure first = some ((Lexeme.read first others).kind,
      byteLength (Lexeme.read first others).characters) := by
  unfold measure
  simp only [begins, Option.bind_eq_bind, Option.bind_some]
  by_cases letter : isWordCharacter first = true
  · simp [Lexeme.read, letter]
  · by_cases digit : first.isDigit = true
    · simp [Lexeme.read, letter, digit]
    · have noLetter : isWordCharacter first = false := by simpa using letter
      have noDigit : first.isDigit = false := by simpa using digit
      by_cases pair : (first = '=' ∨ first = '!') ∧ others.head? = some '='
      · obtain ⟨sign, doubled⟩ := pair
        obtain ⟨others, rfl⟩ := List.head?_eq_some_iff.1 doubled
        rcases sign with rfl | rfl <;> simp only [symbol, nextCharacter_eq begins] <;> rfl
      · have single : first = '=' ∨ first = '!' → ∀ c ∈ others.head?, c ≠ '=' := by
          rintro sign c member rfl
          exact pair ⟨sign, member⟩
        rw [Lexeme.read_symbol noLetter noDigit single, symbol_single begins single]
        simp [noLetter, noDigit, ofSymbol_not_pair]

/-- What is ahead after gaps. -/
theorem ahead_advance_gaps {characters : List Char} (begins : lexer.ahead = some characters) :
    (lexer.advance (byteLength (characters.takeWhile isGap))).ahead =
      some (characters.dropWhile isGap) := by
  rw [← List.takeWhile_append_dropWhile (p := isGap) (l := characters)] at begins
  exact dropBytes_append begins

/-- Cutting up the source gives the tokens that reading the text ahead does, and fails where there
is no text ahead. -/
theorem cut_eq_token (lexer : Lexer) : lexer.cut = lexer.token := by
  cases begins : lexer.ahead with
  | none => simp [cut, Lexer.token, begins]
  | some characters =>
      have start := ahead_advance_gaps begins
      have size := byteLength_of_dropBytes start
      simp only [cut, Lexer.token, begins, Option.bind_eq_bind, Option.bind_some, character, start,
        nextToken, Option.map_some]
      cases solid : characters.dropWhile isGap with
      | nil =>
          rw [solid, byteLength_nil, Nat.add_zero] at size
          have place : lexer.offset + byteLength (characters.takeWhile isGap) =
              lexer.source.utf8ByteSize := size
          simp [advance, finish, place]
      | cons first others =>
          rw [solid] at start
          have measured := measure_eq start
          rw [← Lexeme.read_append first others] at start
          have text := slice_of_dropBytes start
          simp only [List.getElem?_cons_zero, measured, Option.bind_some]
          simp only [advance, Nat.add_assoc] at text ⊢
          rw [text]
          rfl

/-! ### Reading on -/

/-- What reading this token does to the cursor. -/
structure Moves (lexer : Lexer) (token : Token) (after : Lexer) : Prop where
  source : after.source = lexer.source
  file : after.file = lexer.file
  boundary : after.OnBoundary
  inside : after.offset ≤ lexer.source.utf8ByteSize
  monotone : lexer.offset ≤ after.offset
  finish : token.kind = .endOfInput ↔ Blank lexer.source lexer.offset lexer.source.utf8ByteSize
  atEnd : token.kind = .endOfInput → after.offset = lexer.source.utf8ByteSize
  forward : token.kind ≠ .endOfInput → lexer.offset < after.offset

theorem blank_iff (begins : lexer.ahead = some rest) :
    Blank lexer.source lexer.offset lexer.source.utf8ByteSize ↔ ∀ c ∈ rest, isGap c = true := by
  have whole : dropBytes lexer.offset lexer.source.toList = some (rest ++ []) := by
    rw [List.append_nil]
    exact begins
  have text := slice_of_dropBytes whole
  have size := byteLength_of_dropBytes begins
  rw [size] at text
  constructor
  · rintro ⟨_, gaps, same, all⟩
    rw [text] at same
    cases same
    simpa using all
  · intro all
    exact ⟨by omega, _, text, by simpa using all⟩

theorem nextToken_eq_none_iff {file : String} {offset : Nat} :
    nextToken file offset rest = none ↔ ∀ c ∈ rest, isGap c = true := by
  rw [← List.dropWhile_eq_nil_iff]
  unfold nextToken
  split <;> simp [*]

/-- Where there is text ahead, a token is read and there is text ahead again. -/
theorem exists_moves (begins : lexer.ahead = some rest) :
    ∃ token after, lexer.token = some (token, after) ∧ lexer.Moves token after := by
  have size := byteLength_of_dropBytes begins
  cases found : nextToken lexer.file lexer.offset rest with
  | none =>
      refine ⟨lexer.finish, { lexer with offset := lexer.source.utf8ByteSize }, ?_, ?_⟩
      · simp [Lexer.token, begins, found]
      · exact {
          source := rfl
          file := rfl
          boundary := String.Pos.Raw.isValid_rawEndPos
          inside := Nat.le_refl _
          monotone := by dsimp only; omega
          finish := iff_of_true rfl ((blank_iff begins).2 (nextToken_eq_none_iff.1 found))
          atEnd := fun _ => rfl
          forward := fun other => absurd rfl other }
  | some scanned =>
      obtain ⟨before, rfl, place⟩ := nextToken_split found
      have later := dropBytes_append begins
      rw [← place] at later
      rw [byteLength_append] at size
      have shorter := nextToken_rest_length found
      have positive : 0 < byteLength before := by
        cases before with
        | nil => exact absurd shorter (Nat.lt_irrefl _)
        | cons c before => exact Nat.add_pos_left c.utf8Size_pos _
      have other := nextToken_kind_ne_endOfInput found
      have solid : ¬ Blank lexer.source lexer.offset lexer.source.utf8ByteSize := by
        rw [blank_iff begins, ← nextToken_eq_none_iff, found]
        simp
      refine ⟨scanned.token, { lexer with offset := scanned.offset }, ?_, ?_⟩
      · simp [Lexer.token, begins, found]
      · exact {
          source := rfl
          file := rfl
          boundary := onBoundary_iff.2 ⟨_, later⟩
          inside := by dsimp only; omega
          monotone := by dsimp only; omega
          finish := iff_of_false other solid
          atEnd := fun same => absurd same other
          forward := fun _ => by dsimp only; omega }

theorem token_eq_none (misplaced : ¬ lexer.OnBoundary) :
    lexer.character = none ∧ lexer.nextCharacter = none ∧ lexer.token = none := by
  have nothing : lexer.ahead = none := by
    rw [onBoundary_iff] at misplaced
    exact Option.eq_none_iff_forall_ne_some.2 fun rest begins => misplaced ⟨rest, begins⟩
  simp [character, nextCharacter, Lexer.token, nothing]

theorem Moves.of_token (read : lexer.token = some (token, after)) : lexer.Moves token after := by
  cases begins : lexer.ahead with
  | none =>
      rw [Lexer.token, begins] at read
      cases read
  | some rest =>
      obtain ⟨_, _, same, moves⟩ := exists_moves begins
      cases read.symm.trans same
      exact moves

/-- Reads tokens until one is the end of input, which is the last one.  There is no such list if
a reading fails. -/
def all (lexer : Lexer) : Option (List Token) :=
  match _read : lexer.token with
  | none => none
  | some (token, after) =>
      if _more : token.kind = .endOfInput then some [token] else after.all.map (token :: ·)
termination_by lexer.source.utf8ByteSize - lexer.offset
decreasing_by
  have moves := Moves.of_token _read
  have forward := moves.forward _more
  have inside := moves.inside
  rw [moves.source]
  omega

theorem all_eq (read : lexer.token = some (token, after)) :
    lexer.all =
      if token.kind = .endOfInput then some [token] else after.all.map (token :: ·) := by
  rw [all]
  split <;> rename_i same <;> cases read.symm.trans same
  rfl

theorem all_of_tokens {tokens : List Token} (ahead : lexer.tokens = some tokens)
    (present : ∀ token ∈ tokens, token.kind ≠ .endOfInput) :
    lexer.all = some (tokens ++ [lexer.finish]) := by
  induction tokens generalizing lexer with
  | nil =>
      obtain ⟨after, read, _⟩ := token_of_tokens ahead
      have last : lexer.token = some (lexer.finish, after) := read
      have ends : lexer.finish.kind = .endOfInput := rfl
      rw [all_eq last, if_pos ends]
      rfl
  | cons token tokens ih =>
      obtain ⟨after, read, later, finish⟩ := token_of_tokens ahead
      have head : lexer.token = some (token, after) := read
      obtain ⟨other, present⟩ := List.forall_mem_cons.1 present
      rw [all_eq head, if_neg other, ih later present, finish]
      rfl

theorem all_ofSource (source : String) (file : Option String) :
    (ofSource source file).all = some (tokenize source file) := by
  have ahead : (ofSource source file).tokens =
      some (scan (file.getD defaultFile) 0 source.toList) := by
    simp [Lexer.tokens, Lexer.ahead, ofSource]
  rw [all_of_tokens ahead (scan_kind_ne_endOfInput _ _ _)]
  rfl

end Lexer

/-- A parse reads on with the cursor as far as the parser gets, and no reading fails. -/
theorem parse_window (source : String) (file : Option String) :
    ∃ program after window, parse source file = .ok program after ∧
      (Window.ofLexer (.ofSource source file)).bind (·.steps after.consumed) = some window ∧
      window.current = after.current ∧ window.peek = after.peek := by
  obtain ⟨program, count, found, parsed, _⟩ :=
    (parse_certain source file).succeeds (fun _ _ _ => id) id
  obtain ⟨first, opened, shown⟩ := Window.ofLexer_shows (Parser.ofLexer_ofSource source file)
  obtain ⟨last, moved, shown⟩ := shown.steps count
  have steps : ((Parser.ofSource source file).beyond count found).consumed = count :=
    Nat.zero_add count
  refine ⟨program, _, last, parsed, ?_, shown.current, shown.peek⟩
  rw [steps, opened]
  exact moved

/-- The cursor of a lexer stays where characters start.  There no reading fails, however often it
is done, and elsewhere every reading does. -/
theorem cursor_on_boundary (lexer : Lexer) :
    (lexer.OnBoundary →
      ∃ token after, lexer.token = some (token, after) ∧ lexer.Moves token after) ∧
    (¬ lexer.OnBoundary →
      lexer.character = none ∧ lexer.nextCharacter = none ∧ lexer.token = none) ∧
    lexer.token = lexer.cut ∧
    ∀ source file, (Lexer.ofSource source file).all = some (tokenize source file) ∧
      ∃ program after window, parse source file = .ok program after ∧
        (Window.ofLexer (.ofSource source file)).bind (·.steps after.consumed) = some window ∧
        window.current = after.current ∧ window.peek = after.peek := by
  refine ⟨fun placed => ?_, Lexer.token_eq_none, lexer.cut_eq_token.symm, fun source file => ?_⟩
  · obtain ⟨rest, begins⟩ := Lexer.onBoundary_iff.1 placed
    exact Lexer.exists_moves begins
  · exact ⟨Lexer.all_ofSource source file, parse_window source file⟩

theorem cursor_on_boundary_accented :
    (⟨"é x", "shell", 2⟩ : Lexer).OnBoundary ∧ ¬ (⟨"é x", "shell", 1⟩ : Lexer).OnBoundary ∧
      (∃ token after, (⟨"é x", "shell", 2⟩ : Lexer).token = some (token, after) ∧
        (⟨"é x", "shell", 2⟩ : Lexer).Moves token after) ∧
      (⟨"é x", "shell", 1⟩ : Lexer).token = none := by
  have placed : (⟨"é x", "shell", 2⟩ : Lexer).OnBoundary := Lexer.onBoundary_iff.2 ⟨_, rfl⟩
  have misplaced : ¬ (⟨"é x", "shell", 1⟩ : Lexer).OnBoundary := by
    have nothing : (⟨"é x", "shell", 1⟩ : Lexer).ahead = none := by decide +kernel
    rw [Lexer.onBoundary_iff, nothing]
    simp
  exact ⟨placed, misplaced, (cursor_on_boundary _).1 placed,
    ((cursor_on_boundary _).2.1 misplaced).2.2⟩

end Monkey
