import Monkey.Proofs.Token.Scanning

namespace Monkey

/-! Texts that are read as tokens, one after another.

A word or a number runs on as far as it can, so that what stands after it matters.
-/

/-- Of what is read from some text before the rest of it, something holds. -/
def Lexes (file : String) (characters rest : List Char) (holds : List Token → Prop) : Prop :=
  ∀ offset, ∃ tokens later,
    scan file offset characters = tokens ++ scan file later rest ∧ holds tokens

namespace Lexes

variable {file : String} {characters middle rest : List Char} {first holds : List Token → Prop}

theorem mono {strong : List Token → Prop} (lexes : Lexes file characters rest strong)
    (weaker : ∀ tokens, strong tokens → holds tokens) : Lexes file characters rest holds := by
  intro offset
  obtain ⟨tokens, later, run, kept⟩ := lexes offset
  exact ⟨tokens, later, run, weaker tokens kept⟩

theorem andThen (before : Lexes file characters middle first)
    (after : Lexes file middle rest fun others =>
      ∀ tokens, first tokens → holds (tokens ++ others)) :
    Lexes file characters rest holds := by
  intro offset
  obtain ⟨tokens, next, run, kept⟩ := before offset
  obtain ⟨others, later, nextRun, joins⟩ := after next
  refine ⟨tokens ++ others, later, ?_, joins tokens kept⟩
  rw [run, nextRun, List.append_assoc]

theorem space : Lexes file (" ".toList ++ rest) rest (· = []) := by
  intro offset
  exact ⟨[], _, scan_gap rfl, rfl⟩

theorem tokenize_eq {source : String} {file : Option String}
    (lexes : Lexes (Lexer.ofSource source file).file source.toList [] holds) :
    ∃ tokens, tokenize source file = tokens ++ [(Lexer.ofSource source file).finish] ∧
      holds tokens := by
  obtain ⟨tokens, later, run, kept⟩ := lexes 0
  rw [scan_nil, List.append_nil] at run
  exact ⟨tokens, congrArg (· ++ _) run, kept⟩

end Lexes

/-- A text that is read as one token of this kind, if what stands after it starts with a
character of some sort or is nothing at all. -/
def Spells (text : String) (kind : Kind) (before : Char → Prop) : Prop :=
  ∀ (file : String) (offset : Nat) (rest : List Char), (∀ c ∈ rest.head?, before c) →
    ∃ span later,
      scan file offset (text.toList ++ rest) = ⟨kind, text, span⟩ :: scan file later rest

namespace Kind

/-- The operators that stand before an operand, as they are written. -/
def prefixOperators : List (Kind × String) :=
  [(.not, "!"), (.dash, "-")]

/-- The operators that stand between operands, as they are written. -/
def infixOperators : List (Kind × String) :=
  [(.equals, "=="), (.notEquals, "!="), (.less, "<"), (.greater, ">"), (.plus, "+"), (.dash, "-"),
    (.star, "*"), (.slash, "/")]

end Kind

/-- Letters and underscores that make no reserved word. -/
structure IsName (text : String) : Prop where
  nonempty : text.toList ≠ []
  letters : ∀ c ∈ text.toList, isWordCharacter c = true
  free : ∀ entry ∈ Kind.reserved, entry.1 ≠ text

structure IsNumeral (text : String) : Prop where
  nonempty : text.toList ≠ []
  digits : ∀ c ∈ text.toList, c.isDigit = true

theorem IsName.ofWord {text : String} (isName : IsName text) : Kind.ofWord text = .identifier := by
  have unknown : Kind.reserved.lookup text = none := by
    rw [List.lookup_eq_none_iff]
    intro entry member
    simpa using (isName.free entry member).symm
  rw [Kind.ofWord, unknown]
  rfl

theorem solid_of_isWordCharacter {c : Char} (letter : isWordCharacter c = true) :
    isGap c = false := by
  have solid : ¬ (c = ' ' ∨ c = '\t' ∨ c = '\r' ∨ c = '\n') := by
    rintro (rfl | rfl | rfl | rfl) <;> revert letter <;> decide
  simpa [isGap] using solid

theorem solid_of_isDigit {c : Char} (digit : c.isDigit = true) :
    isGap c = false ∧ isWordCharacter c = false := by
  have bounds : 48 ≤ c.toNat ∧ c.toNat ≤ 57 := by
    simpa [Char.isDigit, UInt32.le_iff_toNat_le] using digit
  have other : ∀ d : Char, d.toNat < 48 ∨ 57 < d.toNat → c ≠ d := by
    intro d outside same
    subst same
    omega
  have solid : ¬ (c = ' ' ∨ c = '\t' ∨ c = '\r' ∨ c = '\n') := by
    rintro (same | same | same | same) <;> exact other _ (by decide) same
  have plain : c.isAlpha = false := by
    refine Bool.eq_false_iff.2 fun letter => ?_
    rcases Bool.or_eq_true_iff.1 letter with upper | lower
    · have least : 65 ≤ c.toNat := UInt32.le_iff_toNat_le.1 (of_decide_eq_true upper).1
      omega
    · have least : 97 ≤ c.toNat :=
        UInt32.le_iff_toNat_le.1 (of_decide_eq_true (Bool.and_eq_true_iff.1 lower).1)
      omega
  exact ⟨by simpa [isGap] using solid, by simp [isWordCharacter, plain, other '_' (by decide)]⟩

/-- A run of characters of one sort ends where another sort begins. -/
theorem takeWhile_append {sort : Char → Bool} {run rest : List Char}
    (all : ∀ c ∈ run, sort c = true) (stops : ∀ c ∈ rest.head?, sort c = false) :
    (run ++ rest).takeWhile sort = run ∧ (run ++ rest).dropWhile sort = rest := by
  rw [List.takeWhile_append_of_pos all, List.dropWhile_append_of_pos all]
  cases rest with
  | nil => simp
  | cons c rest => simp [stops c rfl]

/-- Runs of characters of one sort that end in the same text are the same. -/
theorem run_eq_of_append {sort : Char → Bool} {run other rest others : List Char}
    (all : ∀ c ∈ run, sort c = true) (otherAll : ∀ c ∈ other, sort c = true)
    (stops : ∀ c ∈ rest.head?, sort c = false) (otherStops : ∀ c ∈ others.head?, sort c = false)
    (same : run ++ rest = other ++ others) : run = other ∧ rest = others := by
  obtain ⟨taken, dropped⟩ := takeWhile_append all stops
  obtain ⟨otherTaken, otherDropped⟩ := takeWhile_append otherAll otherStops
  exact ⟨taken.symm.trans ((congrArg _ same).trans otherTaken),
    dropped.symm.trans ((congrArg _ same).trans otherDropped)⟩

/-- A character that starts no run and no pair is a lexeme by itself. -/
theorem Lexeme.read_symbol {first : Char} {rest : List Char}
    (noLetter : isWordCharacter first = false) (noDigit : first.isDigit = false)
    (single : first = '=' ∨ first = '!' → ∀ c ∈ rest.head?, c ≠ '=') :
    read first rest = ⟨Kind.ofSymbol first, [first], rest⟩ := by
  unfold read
  rw [if_neg (by simp [noLetter]), if_neg (by simp [noDigit])]
  split
  · exact absurd rfl (single (.inl rfl) _ rfl)
  · exact absurd rfl (single (.inr rfl) _ rfl)
  · rfl

/-- A text that is one lexeme of this kind if the rest comes after it. -/
def Reads (text : String) (kind : Kind) (rest : List Char) : Prop :=
  ∃ first others, text.toList = first :: others ∧ isGap first = false ∧
    Lexeme.read first (others ++ rest) = ⟨kind, text.toList, rest⟩

namespace Reads

variable {text : String} {kind : Kind} {rest : List Char}

/-- Such a text is the first token, and the rest is read where the text ends. -/
theorem scan_eq (reads : Reads text kind rest) (file : String) (offset : Nat) :
    scan file offset (text.toList ++ rest) =
      ⟨kind, text, .between file offset (offset + text.utf8ByteSize : Nat)⟩ ::
        scan file (offset + text.utf8ByteSize) rest := by
  obtain ⟨first, others, whole, solid, read⟩ := reads
  rw [whole, List.cons_append, scan_solid solid, read, String.ofList_toList, byteLength_toList]

theorem word (nonempty : text.toList ≠ []) (letters : ∀ c ∈ text.toList, isWordCharacter c = true)
    (stops : ∀ c ∈ rest.head?, isWordCharacter c = false) :
    Reads text (Kind.ofWord text) rest := by
  obtain ⟨first, others, whole⟩ := List.exists_cons_of_ne_nil nonempty
  rw [whole] at letters
  obtain ⟨letter, letters⟩ := List.forall_mem_cons.1 letters
  refine ⟨first, others, whole, solid_of_isWordCharacter letter, ?_⟩
  obtain ⟨taken, dropped⟩ := takeWhile_append letters stops
  unfold Lexeme.read
  rw [if_pos letter, taken, dropped, ← whole]
  simp only [String.ofList_toList]

theorem numeral (isNumeral : IsNumeral text) (stops : ∀ c ∈ rest.head?, c.isDigit = false) :
    Reads text .integer rest := by
  obtain ⟨first, others, whole⟩ := List.exists_cons_of_ne_nil isNumeral.nonempty
  have digits := isNumeral.digits
  rw [whole] at digits
  obtain ⟨digit, digits⟩ := List.forall_mem_cons.1 digits
  obtain ⟨solid, plain⟩ := solid_of_isDigit digit
  refine ⟨first, others, whole, solid, ?_⟩
  obtain ⟨taken, dropped⟩ := takeWhile_append digits stops
  have word : ¬ isWordCharacter first = true := by simp [plain]
  unfold Lexeme.read
  rw [if_neg word, if_pos digit, taken, dropped, whole]

theorem symbol {c : Char} (whole : text.toList = [c]) (solid : isGap c = false)
    (read : Lexeme.read c rest = ⟨kind, [c], rest⟩) : Reads text kind rest :=
  ⟨c, [], whole, solid, by rw [whole]; exact read⟩

theorem lone {c : Char} (solid : isGap c = false) (noLetter : isWordCharacter c = false)
    (noDigit : c.isDigit = false)
    (single : c = '=' ∨ c = '!' → ∀ other ∈ rest.head?, other ≠ '=') :
    Reads (String.singleton c) (Kind.ofSymbol c) rest :=
  symbol (String.toList_singleton c) solid (Lexeme.read_symbol noLetter noDigit single)

/-- One character of what might have been two. -/
theorem assignment (single : ∀ c ∈ rest.head?, c ≠ '=') : Reads "=" .assignment rest :=
  @lone rest '=' rfl rfl rfl fun _ => single

theorem not (single : ∀ c ∈ rest.head?, c ≠ '=') : Reads "!" .not rest :=
  @lone rest '!' rfl rfl rfl fun _ => single

theorem equals : Reads "==" .equals rest := ⟨_, _, rfl, rfl, rfl⟩

theorem notEquals : Reads "!=" .notEquals rest := ⟨_, _, rfl, rfl, rfl⟩

/-- A text is read as one kind of token. -/
theorem kind_eq {other : Kind} (reads : Reads text kind rest) (again : Reads text other rest) :
    kind = other := by
  obtain ⟨first, others, whole, _, read⟩ := reads
  obtain ⟨_, _, same, _, readAgain⟩ := again
  cases whole.symm.trans same
  exact congrArg Lexeme.kind (read.symm.trans readAgain)

end Reads

namespace Spells

variable {text : String} {kind : Kind} {before : Char → Prop}

theorem of_reads
    (reads : ∀ rest : List Char, (∀ c ∈ rest.head?, before c) → Reads text kind rest) :
    Spells text kind before :=
  fun file offset rest allowed => ⟨_, _, (reads rest allowed).scan_eq file offset⟩

theorem lexes {file : String} {rest : List Char} (spells : Spells text kind before)
    (allowed : ∀ c ∈ rest.head?, before c) :
    Lexes file (text.toList ++ rest) rest fun tokens => ∃ span, tokens = [⟨kind, text, span⟩] := by
  intro offset
  obtain ⟨span, later, run⟩ := spells file offset rest allowed
  exact ⟨_, later, run, span, rfl⟩

theorem spaced {file : String} {rest : List Char} (spells : Spells text kind before)
    (allowed : before ' ') :
    Lexes file (text.toList ++ (" ".toList ++ rest)) rest
      fun tokens => ∃ span, tokens = [⟨kind, text, span⟩] := by
  have first : ∀ c ∈ (" ".toList ++ rest).head?, before c := by
    intro c member
    obtain rfl : ' ' = c := by simpa using member
    exact allowed
  refine .andThen (spells.lexes first) (Lexes.space.mono ?_)
  rintro _ rfl tokens ⟨span, rfl⟩
  exact ⟨span, rfl⟩

theorem mono {after : Char → Prop} (spells : Spells text kind before)
    (weaker : ∀ c, after c → before c) : Spells text kind after :=
  fun file offset rest allowed =>
    spells file offset rest fun c member => weaker c (allowed c member)

theorem word (nonempty : text.toList ≠ []) (letters : ∀ c ∈ text.toList, isWordCharacter c = true) :
    Spells text (Kind.ofWord text) (fun c => isWordCharacter c = false) :=
  .of_reads fun _ stops => .word nonempty letters stops

theorem trueKeyword : Spells "true" .trueKeyword (fun c => isWordCharacter c = false) :=
  word (by decide) (List.all_eq_true.1 rfl)

theorem falseKeyword : Spells "false" .falseKeyword (fun c => isWordCharacter c = false) :=
  word (by decide) (List.all_eq_true.1 rfl)

theorem letKeyword : Spells "let" .letKeyword (fun c => isWordCharacter c = false) :=
  word (by decide) (List.all_eq_true.1 rfl)

theorem returnKeyword : Spells "return" .returnKeyword (fun c => isWordCharacter c = false) :=
  word (by decide) (List.all_eq_true.1 rfl)

theorem name (isName : IsName text) :
    Spells text .identifier (fun c => isWordCharacter c = false) := by
  have spells := word isName.nonempty isName.letters
  rwa [isName.ofWord] at spells

theorem numeral (isNumeral : IsNumeral text) :
    Spells text .integer (fun c => c.isDigit = false) :=
  .of_reads fun _ stops => .numeral isNumeral stops

theorem symbol {c : Char} (whole : text.toList = [c]) (solid : isGap c = false)
    (read : ∀ rest, Lexeme.read c rest = ⟨kind, [c], rest⟩) : Spells text kind (fun _ => True) :=
  .of_reads fun rest _ => .symbol whole solid (read rest)

theorem openParen : Spells "(" .openParen (fun _ => True) := symbol rfl rfl fun _ => rfl

theorem closeParen : Spells ")" .closeParen (fun _ => True) := symbol rfl rfl fun _ => rfl

theorem comma : Spells "," .comma (fun _ => True) := symbol rfl rfl fun _ => rfl

theorem semicolon : Spells ";" .semicolon (fun _ => True) := symbol rfl rfl fun _ => rfl

theorem assignment : Spells "=" .assignment (· ≠ '=') :=
  .of_reads fun _ single => .assignment single

theorem not : Spells "!" .not (· ≠ '=') :=
  .of_reads fun _ single => .not single

theorem dash : Spells "-" .dash (fun _ => True) := symbol rfl rfl fun _ => rfl

theorem prefixOperator (operates : (kind, text) ∈ Kind.prefixOperators) :
    Spells text kind (· ≠ '=') := by
  simp only [Kind.prefixOperators, List.mem_cons, Prod.mk.injEq, List.not_mem_nil,
    or_false] at operates
  rcases operates with ⟨rfl, rfl⟩ | ⟨rfl, rfl⟩
  · exact not
  · exact dash.mono fun _ _ => trivial

theorem infixOperator (operates : (kind, text) ∈ Kind.infixOperators) :
    Spells text kind (fun _ => True) := by
  simp only [Kind.infixOperators, List.mem_cons, Prod.mk.injEq, List.not_mem_nil,
    or_false] at operates
  rcases operates with ⟨rfl, rfl⟩ | ⟨rfl, rfl⟩ | ⟨rfl, rfl⟩ | ⟨rfl, rfl⟩ | ⟨rfl, rfl⟩ |
    ⟨rfl, rfl⟩ | ⟨rfl, rfl⟩ | ⟨rfl, rfl⟩
  · exact .of_reads fun _ _ => .equals
  · exact .of_reads fun _ _ => .notEquals
  all_goals exact symbol rfl rfl fun _ => rfl

end Spells

end Monkey
