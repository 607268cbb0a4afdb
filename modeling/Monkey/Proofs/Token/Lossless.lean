import Monkey.Proofs.Source.Slice
import Monkey.Proofs.Token.Lexical

namespace Monkey

/-! A source can be put together again from its tokens.

Each token is the text of the source between its two offsets, and all that lies between tokens
is gaps.
-/

/-- The token is the text of the source at this offset, and its span says so as far as a span
can. -/
structure Token.StandsAt (source file : String) (offset : Nat) (token : Token) : Prop where
  slice : slice source offset (offset + token.text.utf8ByteSize) = some token.text
  inside : offset + token.text.utf8ByteSize ≤ source.utf8ByteSize
  span : token.span = .between file offset (offset + token.text.utf8ByteSize : Nat)

namespace Token.StandsAt

variable {source file : String} {offset : Nat} {token : Token}

theorem start (stands : token.StandsAt source file offset)
    (small : source.utf8ByteSize ≤ Position.lastOffset) : token.span.start.offset = offset := by
  have inside := stands.inside
  rw [stands.span]
  exact Position.clamp_natCast_of_le (by omega)

/-- A start that is not the last place that a span can hold is the true one. -/
theorem start_of_lt (stands : token.StandsAt source file offset)
    (lt : token.span.start.offset < Position.lastOffset) : token.span.start = ⟨offset, file⟩ := by
  have start : token.span.start = ⟨Position.clamp offset, file⟩ := congrArg Span.start stands.span
  rw [start] at lt ⊢
  dsimp only at lt
  rw [Position.clamp_natCast] at lt ⊢
  congr 1
  omega

theorem stop (stands : token.StandsAt source file offset)
    (small : source.utf8ByteSize ≤ Position.lastOffset) :
    token.span.stop.offset = offset + token.text.utf8ByteSize := by
  have inside := stands.inside
  rw [stands.span]
  exact Position.clamp_natCast_of_le (by omega)

end Token.StandsAt

/-- The pairs of offsets between which no token stands, where the first token begins at or after
`offset` and the last one ends at or before `length`. -/
def stretches (offset : Nat) (tokens : List Token) (length : Nat) : List (Nat × Nat) :=
  (offset :: tokens.map (·.span.stop.offset)).zip (tokens.map (·.span.start.offset) ++ [length])

theorem stretches_cons {offset length : Nat} {token : Token} {tokens : List Token} :
    stretches offset (token :: tokens) length =
      (offset, token.span.start.offset) :: stretches token.span.stop.offset tokens length := rfl

/-- There is nothing but gaps between the two offsets. -/
def Blank (source : String) (start stop : Nat) : Prop :=
  start ≤ stop ∧ ∃ gaps, slice source start stop = some gaps ∧ ∀ c ∈ gaps.toList, isGap c = true

theorem Blank.of_dropBytes {source : String} {start : Nat} {gaps after : List Char}
    (ahead : dropBytes start source.toList = some (gaps ++ after))
    (all : ∀ c ∈ gaps, isGap c = true) : Blank source start (start + byteLength gaps) :=
  ⟨Nat.le_add_right .., _, slice_of_dropBytes ahead, by simpa using all⟩

theorem Token.StandsAt.of_dropBytes {source file : String} {start : Nat} {kind : Kind}
    {text : String} {after : List Char}
    (ahead : dropBytes start source.toList = some (text.toList ++ after)) :
    Token.StandsAt source file start
      ⟨kind, text, .between file start (start + text.utf8ByteSize : Nat)⟩ := by
  have piece := slice_of_dropBytes ahead
  have length := byteLength_of_dropBytes ahead
  rw [byteLength_toList, String.ofList_toList] at piece
  rw [byteLength_append, byteLength_toList] at length
  exact ⟨piece, by dsimp only; omega, rfl⟩

theorem IsLexeme.size_pos {kind : Kind} {text : String} {rest : List Char}
    (isLexeme : IsLexeme kind text rest.head?) : 0 < text.utf8ByteSize := by
  obtain ⟨first, others, whole, _⟩ := isLexeme.reads
  have positive := first.utf8Size_pos
  rw [← byteLength_toList, whole, byteLength_cons]
  omega

namespace Covers

variable {source file : String} {offset : Nat} {characters : List Char} {tokens : List Token}

/-- The first token begins after the gaps, and what it leaves begins where it ends. -/
theorem ahead_of_token {begins : Nat} {gaps rest : List Char} {text : String}
    (ahead : dropBytes offset source.toList = some (gaps ++ (text.toList ++ rest)))
    (start : begins = offset + byteLength gaps) :
    dropBytes begins source.toList = some (text.toList ++ rest) ∧
      dropBytes (begins + text.utf8ByteSize) source.toList = some rest := by
  subst start
  have here := dropBytes_append ahead
  have later := dropBytes_append here
  rw [byteLength_toList] at later
  exact ⟨here, later⟩

theorem standsAt (covers : Covers file offset characters tokens)
    (ahead : dropBytes offset source.toList = some characters) :
    ∀ token ∈ tokens, ∃ start, offset ≤ start ∧ token.StandsAt source file start := by
  induction covers with
  | gap => simp
  | token gaps start isLexeme others ih =>
      obtain ⟨here, later⟩ := ahead_of_token ahead start
      refine List.forall_mem_cons.2 ⟨⟨_, by omega, .of_dropBytes here⟩, ?_⟩
      intro token member
      obtain ⟨begins, after, stands⟩ := ih later token member
      exact ⟨begins, by omega, stands⟩

/-- Of two tokens the first one stands before the second one. -/
theorem pairwise (covers : Covers file offset characters tokens)
    (ahead : dropBytes offset source.toList = some characters) :
    tokens.Pairwise fun first second => ∃ start later, start < later ∧
      first.StandsAt source file start ∧ second.StandsAt source file later := by
  induction covers with
  | gap => exact .nil
  | token gaps start isLexeme others ih =>
      obtain ⟨here, later⟩ := ahead_of_token ahead start
      have positive := isLexeme.size_pos
      refine List.pairwise_cons.2 ⟨?_, ih later⟩
      intro token member
      obtain ⟨begins, after, stands⟩ := others.standsAt later token member
      exact ⟨_, begins, by omega, .of_dropBytes here, stands⟩

/-- What is left out between tokens is gaps. -/
theorem blank (covers : Covers file offset characters tokens)
    (ahead : dropBytes offset source.toList = some characters)
    (small : source.utf8ByteSize ≤ Position.lastOffset) :
    ∀ stretch ∈ stretches offset tokens source.utf8ByteSize,
      Blank source stretch.1 stretch.2 := by
  induction covers with
  | @gap characters offset gaps =>
      have whole : dropBytes offset source.toList = some (characters ++ []) := by
        rwa [List.append_nil]
      have blank := Blank.of_dropBytes whole gaps
      rw [byteLength_of_dropBytes ahead] at blank
      simpa [stretches] using blank
  | @token _ begins offset kind text rest tokens gaps start isLexeme others ih =>
      obtain ⟨here, later⟩ := ahead_of_token ahead start
      have stands := @Token.StandsAt.of_dropBytes source file begins kind text rest here
      have first := Blank.of_dropBytes ahead gaps
      rw [← start, ← stands.start small] at first
      rw [stretches_cons, stands.stop small]
      exact List.forall_mem_cons.2 ⟨first, ih later⟩

end Covers

/-- Every token but the end of input is text of the source, with no gap in it. -/
theorem tokenize_standsAt {source : String} {file : Option String} {token : Token}
    (among : token ∈ tokenize source file) (present : token.kind ≠ .endOfInput) :
    token.text ≠ "" ∧ (∀ c ∈ token.text.toList, isGap c = false) ∧
      ∃ offset, token.StandsAt source (file.getD Lexer.defaultFile) offset := by
  have covers := Covers.scan (file.getD Lexer.defaultFile) 0 source.toList
  rcases List.mem_append.1 among with inside | last
  · obtain ⟨offset, _, stands⟩ := covers.standsAt (dropBytes_zero _) token inside
    obtain ⟨rest, isLexeme⟩ := covers.isLexeme token inside
    refine ⟨?_, isLexeme.solid, offset, stands⟩
    intro empty
    have positive := isLexeme.size_pos
    rw [empty] at positive
    exact absurd positive (by decide)
  · rw [List.mem_singleton.1 last] at present
    exact absurd rfl present

/-- Where the tokens of a source start. -/
theorem tokenize_start {source : String} {file : Option String} :
    ∀ token ∈ tokenize source file, ∃ offset ≤ source.utf8ByteSize,
      token.span.start = ⟨Position.clamp offset, file.getD Lexer.defaultFile⟩ := by
  intro token member
  rcases List.mem_append.1 member with inside | last
  · have covers := Covers.scan (file.getD Lexer.defaultFile) 0 source.toList
    obtain ⟨offset, _, stands⟩ := covers.standsAt (dropBytes_zero _) token inside
    have bound := stands.inside
    exact ⟨offset, by omega, by rw [stands.span]; rfl⟩
  · rw [List.mem_singleton.1 last]
    exact ⟨source.utf8ByteSize, Nat.le_refl _, rfl⟩

/-- Tokens hold the text of their source, each between its two offsets, and leave out nothing but
gaps. -/
theorem tokenize_lossless (source : String) (file : Option String)
    (small : source.utf8ByteSize < 4294967296) :
    ∃ tokens, tokenize source file = tokens ++
        [⟨.endOfInput, "", ⟨⟨source.utf8ByteSize, file.getD "shell"⟩,
          ⟨source.utf8ByteSize, file.getD "shell"⟩⟩⟩] ∧
      (∀ token ∈ tokens, token.kind ≠ .endOfInput ∧ token.text ≠ "" ∧
        slice source token.span.start.offset token.span.stop.offset = some token.text ∧
        token.span.start.file = file.getD "shell" ∧ token.span.stop.file = file.getD "shell") ∧
      ∀ stretch ∈ stretches 0 tokens source.utf8ByteSize,
        Blank source stretch.1 stretch.2 := by
  have covers := Covers.scan (file.getD Lexer.defaultFile) 0 source.toList
  have start := dropBytes_zero source.toList
  have fits : source.utf8ByteSize ≤ Position.lastOffset := Nat.le_of_lt_succ small
  refine ⟨_, ?_, ?_, covers.blank start fits⟩
  · have finish : Token.endOfInput (file.getD Lexer.defaultFile) source.utf8ByteSize =
        ⟨.endOfInput, "", ⟨⟨source.utf8ByteSize, file.getD Lexer.defaultFile⟩,
          ⟨source.utf8ByteSize, file.getD Lexer.defaultFile⟩⟩⟩ := by
      rw [Token.endOfInput, Span.between, Position.clamp_natCast_of_le fits]
    rw [tokenize, Lexer.finish, Lexer.ofSource, finish]
    rfl
  · intro token member
    obtain ⟨offset, _, stands⟩ := covers.standsAt start token member
    obtain ⟨rest, isLexeme⟩ := covers.isLexeme token member
    have nonempty : token.text ≠ "" := by
      intro empty
      have positive := isLexeme.size_pos
      rw [empty] at positive
      exact absurd positive (by decide)
    refine ⟨isLexeme.kind_ne_endOfInput, nonempty, ?_, ?_, ?_⟩
    · rw [stands.start fits, stands.stop fits]
      exact stands.slice
    · rw [stands.span]
      rfl
    · rw [stands.span]
      rfl

theorem tokenize_lossless_accented :
    "é ==\t9".utf8ByteSize < 4294967296 ∧
      ∃ tokens, tokenize "é ==\t9" none =
          tokens ++ [⟨.endOfInput, "", ⟨⟨7, "shell"⟩, ⟨7, "shell"⟩⟩⟩] ∧
        ∀ token ∈ tokens,
          slice "é ==\t9" token.span.start.offset token.span.stop.offset = some token.text := by
  have small : "é ==\t9".utf8ByteSize < 4294967296 := by decide
  obtain ⟨tokens, whole, each, _⟩ := tokenize_lossless "é ==\t9" none small
  exact ⟨small, tokens, whole, fun token member => (each token member).2.2.1⟩

end Monkey
