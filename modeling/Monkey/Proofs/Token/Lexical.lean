import Monkey.Proofs.Token.Spelling

namespace Monkey

/-! The lexical grammar, and that the tokens of a source are the only ones it admits.

A lexeme is a text with the character after it: words, numbers and the first characters of
`==` and `!=` are lexemes only where they could not have gone on.  A source is covered by
lexemes from left to right, with nothing but gaps between them, and that in one way only.
-/

namespace Kind

/-- The words that have kinds of their own. -/
def keywords : List (Kind × String) :=
  [(.functionKeyword, "fn"), (.letKeyword, "let"), (.ifKeyword, "if"), (.elseKeyword, "else"),
    (.returnKeyword, "return"), (.trueKeyword, "true"), (.falseKeyword, "false")]

/-- The characters that have kinds of their own whatever comes after them. -/
def marks : List (Kind × Char) :=
  [(.plus, '+'), (.dash, '-'), (.star, '*'), (.slash, '/'), (.less, '<'), (.greater, '>'),
    (.comma, ','), (.semicolon, ';'), (.openParen, '('), (.closeParen, ')'), (.openCurly, '{'),
    (.closeCurly, '}')]

end Kind

/-- A run of letters and underscores. -/
structure IsWord (text : String) : Prop where
  nonempty : text.toList ≠ []
  letters : ∀ c ∈ text.toList, isWordCharacter c = true

/-- A text that is a lexeme of this kind before the next character, or at the end of a source
if there is none. -/
inductive IsLexeme : (kind : Kind) → (text : String) → (next : Option Char) → Prop
  | keyword (reserved : (kind, text) ∈ Kind.keywords)
      (ends : ∀ c ∈ next, isWordCharacter c = false) : IsLexeme kind text next
  | name (isWord : IsWord text) (free : ∀ entry ∈ Kind.keywords, entry.2 ≠ text)
      (ends : ∀ c ∈ next, isWordCharacter c = false) : IsLexeme .identifier text next
  | numeral (isNumeral : IsNumeral text) (ends : ∀ c ∈ next, c.isDigit = false) :
      IsLexeme .integer text next
  | equals : IsLexeme .equals "==" next
  | notEquals : IsLexeme .notEquals "!=" next
  | assignment (single : ∀ c ∈ next, c ≠ '=') : IsLexeme .assignment "=" next
  | not (single : ∀ c ∈ next, c ≠ '=') : IsLexeme .not "!" next
  | mark (own : (kind, c) ∈ Kind.marks) : IsLexeme kind (String.singleton c) next
  /-- A character with no use in the language. -/
  | illegal (solid : isGap c = false) (noLetter : isWordCharacter c = false)
      (noDigit : c.isDigit = false) (noSign : c ≠ '=' ∧ c ≠ '!')
      (noMark : ∀ entry ∈ Kind.marks, entry.2 ≠ c) : IsLexeme .illegal (String.singleton c) next

namespace Kind

theorem isWord_of_keyword {kind : Kind} {text : String} (reserved : (kind, text) ∈ keywords) :
    IsWord text ∧ ofWord text = kind := by
  have all : ∀ entry ∈ keywords,
      (entry.2.toList ≠ [] ∧ entry.2.toList.all isWordCharacter = true) ∧
        ofWord entry.2 = entry.1 := by
    decide +kernel
  obtain ⟨⟨nonempty, letters⟩, named⟩ := all _ reserved
  exact ⟨⟨nonempty, List.all_eq_true.1 letters⟩, named⟩

theorem ofWord_of_free {text : String} (free : ∀ entry ∈ keywords, entry.2 ≠ text) :
    ofWord text = .identifier := by
  have unknown : reserved.lookup text = none := by
    rw [List.lookup_eq_none_iff]
    have listed : ∀ entry ∈ reserved, (entry.2, entry.1) ∈ keywords := by decide
    intro entry member
    simpa using (free _ (listed entry member)).symm
  rw [ofWord, unknown]
  rfl

theorem ofSymbol_of_mark {kind : Kind} {c : Char} (own : (kind, c) ∈ marks) :
    (isGap c = false ∧ isWordCharacter c = false ∧ c.isDigit = false ∧ c ≠ '=' ∧ c ≠ '!') ∧
      ofSymbol c = kind := by
  have all : ∀ entry ∈ marks,
      (isGap entry.2 = false ∧ isWordCharacter entry.2 = false ∧ entry.2.isDigit = false ∧
        entry.2 ≠ '=' ∧ entry.2 ≠ '!') ∧ ofSymbol entry.2 = entry.1 := by
    decide +kernel
  exact all _ own

/-- A character that is neither a sign nor a mark is illegal. -/
theorem ofSymbol_of_noMark {c : Char} (noSign : c ≠ '=' ∧ c ≠ '!')
    (noMark : ∀ entry ∈ marks, entry.2 ≠ c) : ofSymbol c = .illegal := by
  unfold ofSymbol
  split <;> simp_all [marks]

end Kind

/-- What stops a run of characters is of another sort. -/
theorem Lexeme.head_dropWhile {sort : Char → Bool} {characters : List Char} :
    ∀ c ∈ (characters.dropWhile sort).head?, sort c = false := by
  intro c member
  have stops := List.head?_dropWhile_not sort characters
  rw [Option.mem_def.1 member] at stops
  exact stops

namespace IsLexeme

variable {kind : Kind} {text : String}

theorem kind_ne_endOfInput {next : Option Char} (isLexeme : IsLexeme kind text next) :
    kind ≠ .endOfInput := by
  cases isLexeme with
  | keyword reserved =>
      have other : ∀ entry ∈ Kind.keywords, entry.1 ≠ .endOfInput := by decide
      exact other _ reserved
  | mark own =>
      have other : ∀ entry ∈ Kind.marks, entry.1 ≠ .endOfInput := by decide
      exact other _ own
  | _ => simp

/-- Every lexeme is read as such. -/
theorem reads {rest : List Char} (isLexeme : IsLexeme kind text rest.head?) :
    Reads text kind rest := by
  cases isLexeme with
  | keyword reserved ends =>
      obtain ⟨isWord, rfl⟩ := Kind.isWord_of_keyword reserved
      exact .word isWord.nonempty isWord.letters ends
  | name isWord free ends =>
      rw [← Kind.ofWord_of_free free]
      exact .word isWord.nonempty isWord.letters ends
  | numeral isNumeral ends => exact .numeral isNumeral ends
  | equals => exact .equals
  | notEquals => exact .notEquals
  | assignment single => exact .assignment single
  | not single => exact .not single
  | mark own =>
      obtain ⟨⟨solid, noLetter, noDigit, noSign⟩, rfl⟩ := Kind.ofSymbol_of_mark own
      exact .lone solid noLetter noDigit fun either => absurd either (by simpa using noSign)
  | illegal solid noLetter noDigit noSign noMark =>
      rw [← Kind.ofSymbol_of_noMark noSign noMark]
      exact .lone solid noLetter noDigit fun either => absurd either (by simpa using noSign)

theorem word {next : Option Char} (isWord : IsWord text)
    (ends : ∀ c ∈ next, isWordCharacter c = false) : IsLexeme (Kind.ofWord text) text next := by
  by_cases reserved : ∃ entry ∈ Kind.keywords, entry.2 = text
  · obtain ⟨⟨kind, _⟩, member, rfl⟩ := reserved
    rw [(Kind.isWord_of_keyword member).2]
    exact .keyword member ends
  · have free : ∀ entry ∈ Kind.keywords, entry.2 ≠ text :=
      fun entry member same => reserved ⟨entry, member, same⟩
    rw [Kind.ofWord_of_free free]
    exact .name isWord free ends

/-- A character by itself, which does not start a pair. -/
theorem symbol {c : Char} {next : Option Char} (solid : isGap c = false)
    (noLetter : isWordCharacter c = false) (noDigit : c.isDigit = false)
    (single : c = '=' ∨ c = '!' → ∀ other ∈ next, other ≠ '=') :
    IsLexeme (Kind.ofSymbol c) (String.singleton c) next := by
  by_cases sign : c = '=' ∨ c = '!'
  · rcases sign with rfl | rfl
    · exact .assignment (single (.inl rfl))
    · exact .not (single (.inr rfl))
  · have noSign : c ≠ '=' ∧ c ≠ '!' := by simpa using sign
    by_cases marked : ∃ entry ∈ Kind.marks, entry.2 = c
    · obtain ⟨⟨kind, _⟩, own, rfl⟩ := marked
      rw [(Kind.ofSymbol_of_mark own).2]
      exact .mark own
    · have noMark : ∀ entry ∈ Kind.marks, entry.2 ≠ c :=
        fun entry member same => marked ⟨entry, member, same⟩
      rw [Kind.ofSymbol_of_noMark noSign noMark]
      exact .illegal solid noLetter noDigit noSign noMark

/-- What is read is a lexeme. -/
theorem of_read {first : Char} (solid : isGap first = false) (rest : List Char) :
    IsLexeme (Lexeme.read first rest).kind (String.ofList (Lexeme.read first rest).characters)
      (Lexeme.read first rest).rest.head? := by
  by_cases letter : isWordCharacter first = true
  · have letters : ∀ c ∈ first :: rest.takeWhile isWordCharacter, isWordCharacter c = true :=
      List.forall_mem_cons.2 ⟨letter, List.all_eq_true.1 List.all_takeWhile⟩
    unfold Lexeme.read
    rw [if_pos letter]
    exact .word ⟨by simp, by simpa using letters⟩ Lexeme.head_dropWhile
  · have noLetter : isWordCharacter first = false := by simpa using letter
    by_cases digit : first.isDigit = true
    · have digits : ∀ c ∈ first :: rest.takeWhile Char.isDigit, c.isDigit = true :=
        List.forall_mem_cons.2 ⟨digit, List.all_eq_true.1 List.all_takeWhile⟩
      unfold Lexeme.read
      rw [if_neg letter, if_pos digit]
      exact .numeral ⟨by simp, by simpa using digits⟩ Lexeme.head_dropWhile
    · have noDigit : first.isDigit = false := by simpa using digit
      by_cases pair : (first = '=' ∨ first = '!') ∧ rest.head? = some '='
      · obtain ⟨sign, doubled⟩ := pair
        obtain ⟨others, rfl⟩ := List.head?_eq_some_iff.1 doubled
        rcases sign with rfl | rfl
        · exact .equals
        · exact .notEquals
      · have single : first = '=' ∨ first = '!' → ∀ c ∈ rest.head?, c ≠ '=' := by
          rintro sign c member rfl
          exact pair ⟨sign, member⟩
        rw [Lexeme.read_symbol noLetter noDigit single, ← String.singleton_eq_ofList]
        exact .symbol solid noLetter noDigit single

/-- There are no gaps inside a lexeme. -/
theorem solid {next : Option Char} (isLexeme : IsLexeme kind text next) :
    ∀ c ∈ text.toList, isGap c = false := by
  cases isLexeme with
  | keyword reserved =>
      intro c member
      exact solid_of_isWordCharacter ((Kind.isWord_of_keyword reserved).1.letters c member)
  | name isWord => exact fun c member => solid_of_isWordCharacter (isWord.letters c member)
  | numeral isNumeral => exact fun c member => (solid_of_isDigit (isNumeral.digits c member)).1
  | equals | notEquals => exact List.forall_mem_cons.2 ⟨rfl, List.forall_mem_singleton.2 rfl⟩
  | assignment | not => exact List.forall_mem_singleton.2 rfl
  | @mark _ c _ own =>
      have all : ∀ entry ∈ Kind.marks, isGap entry.2 = false := by decide
      simpa using all _ own
  | illegal solid => simpa using solid

end IsLexeme

/-- The tokens stand one after another in the text, with nothing but gaps before, between and
after them.  The offset is where the text begins in its source. -/
inductive Covers (file : String) : (offset : Nat) → List Char → List Token → Prop
  | gap (gaps : ∀ c ∈ characters, isGap c = true) : Covers file offset characters []
  | token (gaps : ∀ c ∈ before, isGap c = true) (start : begins = offset + byteLength before)
      (isLexeme : IsLexeme kind text rest.head?)
      (others : Covers file (begins + text.utf8ByteSize) rest tokens) :
      Covers file offset (before ++ (text.toList ++ rest))
        (⟨kind, text, .between file begins (begins + text.utf8ByteSize : Nat)⟩ :: tokens)

namespace Covers

variable {file : String} {offset : Nat} {characters : List Char} {tokens : List Token}

theorem scan (file : String) (offset : Nat) (characters : List Char) :
    Covers file offset characters (scan file offset characters) := by
  induction length : characters.length using Nat.strongRecOn generalizing offset characters with
  | ind left ih =>
      obtain ⟨gaps, rest, rfl, all, solid⟩ : ∃ gaps rest, characters = gaps ++ rest ∧
          (∀ c ∈ gaps, isGap c = true) ∧ ∀ c ∈ rest.head?, isGap c = false :=
        ⟨_, _, List.takeWhile_append_dropWhile.symm, List.all_eq_true.1 List.all_takeWhile,
          Lexeme.head_dropWhile⟩
      rw [scan_gaps rest all]
      cases rest with
      | nil =>
          rw [scan_nil, List.append_nil]
          exact .gap all
      | cons first rest =>
          have whole : first :: rest =
              (String.ofList (Lexeme.read first rest).characters).toList ++
                (Lexeme.read first rest).rest := by
            rw [String.toList_ofList, Lexeme.read_append]
          have shorter : (Lexeme.read first rest).rest.length < left := by
            have least := Lexeme.read_rest_length first rest
            rw [List.length_append] at length
            omega
          rw [scan_solid (solid first rfl),
            byteLength_eq_utf8ByteSize (Lexeme.read first rest).characters, whole]
          exact .token all rfl (.of_read (solid first rfl) rest) (ih _ shorter _ _ rfl)

/-- A text is covered in one way only. -/
theorem scan_eq (covers : Covers file offset characters tokens) :
    Monkey.scan file offset characters = tokens := by
  induction covers with
  | @gap characters _ gaps => rw [← List.append_nil characters, scan_gaps [] gaps, scan_nil]
  | token gaps start isLexeme others ih =>
      rw [scan_gaps _ gaps, ← start, isLexeme.reads.scan_eq, ih]

/-- Every token is a lexeme before what comes after it. -/
theorem isLexeme (covers : Covers file offset characters tokens) :
    ∀ token ∈ tokens, ∃ rest : List Char, IsLexeme token.kind token.text rest.head? := by
  induction covers with
  | gap => simp
  | token gaps start isLexeme others ih => exact List.forall_mem_cons.2 ⟨⟨_, isLexeme⟩, ih⟩

end Covers

/-- The tokens of a source cover it, and no other tokens do. -/
theorem tokenize_covers (source : String) (file : Option String) :
    ∃ tokens, tokenize source file =
        tokens ++ [.endOfInput (file.getD Lexer.defaultFile) source.utf8ByteSize] ∧
      Covers (file.getD Lexer.defaultFile) 0 source.toList tokens ∧
      ∀ others, Covers (file.getD Lexer.defaultFile) 0 source.toList others → others = tokens :=
  ⟨_, rfl, .scan _ _ _, fun _ covers => covers.scan_eq.symm⟩

theorem tokenize_covers_signs :
    ∃ tokens, tokenize "fn ===" none = tokens ++ [.endOfInput "shell" 6] ∧
      [⟨.functionKeyword, "fn", .between "shell" 0 2⟩, ⟨.equals, "==", .between "shell" 3 5⟩,
        ⟨.assignment, "=", .between "shell" 5 6⟩] = tokens := by
  obtain ⟨tokens, whole, _, unique⟩ := tokenize_covers "fn ===" none
  refine ⟨tokens, whole, unique _ ?_⟩
  show Covers "shell" 0
    ([] ++ ("fn".toList ++ ([' '] ++ ("==".toList ++ ([] ++ ("=".toList ++ [])))))) _
  have gap : ∀ c ∈ [' '], isGap c = true := List.forall_mem_singleton.2 rfl
  refine .token (by simp) rfl (.keyword (by decide) ?_) (.token gap rfl .equals ?_)
  · rintro c ⟨⟩
    rfl
  · exact .token (by simp) rfl (.assignment (by simp)) (.gap (by simp))

end Monkey
