import Monkey.Proofs.Token.Concatenation
import Monkey.Proofs.Token.Lexical

namespace Monkey

/-! Where texts can be put together without changing their tokens.

Only the last lexeme of the first text can see the second one, and only if it stands at the
very end.  So the tokens are those of the two texts unless that lexeme would have gone on.
-/

/-- A lexeme of this kind with this last character does not end before the next one. -/
inductive GoesOn (kind : Kind) (last next : Char) : Prop
  | word (letters : isWordCharacter last = true ∧ isWordCharacter next = true)
  | numeral (digits : last.isDigit = true ∧ next.isDigit = true)
  | sign (single : kind = .assignment ∨ kind = .not) (doubled : next = '=')

namespace Kind

theorem keyword_no_sign {kind : Kind} {text : String} (reserved : (kind, text) ∈ keywords) :
    ¬ (kind = .assignment ∨ kind = .not) := by
  have all : ∀ entry ∈ keywords, ¬ (entry.1 = .assignment ∨ entry.1 = .not) := by decide
  exact all _ reserved

theorem mark_no_sign {kind : Kind} {c : Char} (own : (kind, c) ∈ marks) :
    ¬ (kind = .assignment ∨ kind = .not) := by
  have all : ∀ entry ∈ marks, ¬ (entry.1 = .assignment ∨ entry.1 = .not) := by decide
  exact all _ own

end Kind

namespace GoesOn

variable {kind : Kind} {last next : Char}

/-- After a letter only letters belong to the lexeme. -/
theorem iff_letter (noSign : ¬ (kind = .assignment ∨ kind = .not))
    (letter : isWordCharacter last = true) :
    GoesOn kind last next ↔ isWordCharacter next = true := by
  refine ⟨fun goesOn => ?_, fun more => .word ⟨letter, more⟩⟩
  cases goesOn with
  | word letters => exact letters.2
  | numeral digits => exact absurd letter (by simp [(solid_of_isDigit digits.1).2])
  | sign single => exact absurd single noSign

theorem iff_digit (digit : last.isDigit = true) :
    GoesOn .integer last next ↔ next.isDigit = true := by
  refine ⟨fun goesOn => ?_, fun more => .numeral ⟨digit, more⟩⟩
  cases goesOn with
  | word letters => exact absurd letters.1 (by simp [(solid_of_isDigit digit).2])
  | numeral digits => exact digits.2
  | sign single => simp at single

theorem iff_sign (last : Char) (noLetter : isWordCharacter last = false)
    (noDigit : last.isDigit = false) :
    GoesOn kind last next ↔ (kind = .assignment ∨ kind = .not) ∧ next = '=' := by
  refine ⟨fun goesOn => ?_, fun ⟨single, doubled⟩ => .sign single doubled⟩
  cases goesOn with
  | word letters => exact absurd letters.1 (by simp [noLetter])
  | numeral digits => exact absurd digits.1 (by simp [noDigit])
  | sign single doubled => exact ⟨single, doubled⟩

theorem solid {kind : Kind} {last next : Char} (goesOn : GoesOn kind last next) :
    isGap next = false := by
  cases goesOn with
  | word letters => exact solid_of_isWordCharacter letters.2
  | numeral digits => exact (solid_of_isDigit digits.2).1
  | sign _ doubled => rw [doubled]; rfl

end GoesOn

namespace IsLexeme

variable {kind : Kind} {text : String} {last : Char} {next other : Option Char}

/-- A lexeme ends before the next character. -/
theorem not_goesOn (isLexeme : IsLexeme kind text next) (ends : text.toList.getLast? = some last) :
    ∀ c ∈ next, ¬ GoesOn kind last c := by
  have final := List.mem_of_getLast? ends
  intro c member
  cases isLexeme with
  | keyword reserved stops =>
      have letter := (Kind.isWord_of_keyword reserved).1.letters last final
      simp [GoesOn.iff_letter (Kind.keyword_no_sign reserved) letter, stops c member]
  | name isWord _ stops =>
      have noSign : ¬ (Kind.identifier = .assignment ∨ Kind.identifier = .not) := by simp
      simp [GoesOn.iff_letter noSign (isWord.letters last final), stops c member]
  | numeral isNumeral stops =>
      simp [GoesOn.iff_digit (isNumeral.digits last final), stops c member]
  | equals | notEquals =>
      obtain rfl : '=' = last := by simpa using ends
      simp [GoesOn.iff_sign '=' rfl rfl]
  | assignment single =>
      obtain rfl : '=' = last := by simpa using ends
      simpa [GoesOn.iff_sign '=' rfl rfl] using single c member
  | not single =>
      obtain rfl : '!' = last := by simpa using ends
      simpa [GoesOn.iff_sign '!' rfl rfl] using single c member
  | @mark _ mark _ own =>
      obtain ⟨⟨_, noLetter, noDigit, _⟩, _⟩ := Kind.ofSymbol_of_mark own
      obtain rfl : mark = last := by simpa using ends
      simp only [GoesOn.iff_sign _ noLetter noDigit, Kind.mark_no_sign own, false_and,
        not_false_eq_true]
  | @illegal symbol _ _ noLetter noDigit =>
      obtain rfl : symbol = last := by simpa using ends
      simp [GoesOn.iff_sign _ noLetter noDigit]

/-- Whatever a lexeme stands before, it can stand before all that it does not go on into. -/
theorem of_not_goesOn (isLexeme : IsLexeme kind text other)
    (ends : text.toList.getLast? = some last) (apart : ∀ c ∈ next, ¬ GoesOn kind last c) :
    IsLexeme kind text next := by
  have final := List.mem_of_getLast? ends
  cases isLexeme with
  | keyword reserved =>
      have letter := (Kind.isWord_of_keyword reserved).1.letters last final
      refine .keyword reserved fun c member => ?_
      simpa [GoesOn.iff_letter (Kind.keyword_no_sign reserved) letter] using apart c member
  | name isWord free =>
      have noSign : ¬ (Kind.identifier = .assignment ∨ Kind.identifier = .not) := by simp
      refine .name isWord free fun c member => ?_
      simpa [GoesOn.iff_letter noSign (isWord.letters last final)] using apart c member
  | numeral isNumeral =>
      refine .numeral isNumeral fun c member => ?_
      simpa [GoesOn.iff_digit (isNumeral.digits last final)] using apart c member
  | equals => exact .equals
  | notEquals => exact .notEquals
  | assignment =>
      exact .assignment fun c member doubled => apart c member (.sign (.inl rfl) doubled)
  | not =>
      exact .not fun c member doubled => apart c member (.sign (.inr rfl) doubled)
  | mark own => exact .mark own
  | illegal solid noLetter noDigit noSign noMark =>
      exact .illegal solid noLetter noDigit noSign noMark

theorem text_ne_nil (isLexeme : IsLexeme kind text next) : text.toList ≠ [] := by
  cases isLexeme with
  | keyword reserved => exact (Kind.isWord_of_keyword reserved).1.nonempty
  | name isWord => exact isWord.nonempty
  | numeral isNumeral => exact isNumeral.nonempty
  | _ => simp

/-- A lexeme is read before some text just if it is a lexeme there. -/
theorem scan_iff (isLexeme : IsLexeme kind text other) (file : String) (offset : Nat)
    (rest : List Char) :
    scan file offset (text.toList ++ rest) =
        ⟨kind, text, .between file offset (offset + text.utf8ByteSize : Nat)⟩ ::
          scan file (offset + text.utf8ByteSize) rest ↔
      IsLexeme kind text rest.head? := by
  refine ⟨fun same => ?_, fun here => here.reads.scan_eq file offset⟩
  obtain ⟨first, others, whole⟩ := List.exists_cons_of_ne_nil isLexeme.text_ne_nil
  have solid : isGap first = false := isLexeme.solid first (by simp [whole])
  rw [whole, List.cons_append, scan_solid solid] at same
  injection same with token
  injection token with same_kind same_text
  have found := IsLexeme.of_read solid (others ++ rest)
  have splits := Lexeme.read_append first (others ++ rest)
  rw [same_kind, same_text] at found
  rw [← List.cons_append, ← whole, ← same_text, String.toList_ofList,
    List.append_cancel_left_eq] at splits
  rwa [splits] at found

end IsLexeme

/-- What a text ends in: its last token, with what stands before it and the gaps after it.
Up to that token the text is read in one way, whatever comes after the token. -/
structure Ending (file : String) (offset : Nat) (characters : List Char)
    (tokens : List Token) where
  before : List Char
  earlier : List Token
  start : Nat
  kind : Kind
  text : String
  after : List Char
  isLexeme : IsLexeme kind text after.head?
  gaps : ∀ c ∈ after, isGap c = true
  place : start = offset + byteLength before
  whole : characters = before ++ (text.toList ++ after)
  tokens_eq : tokens =
    earlier ++ [⟨kind, text, .between file start (start + text.utf8ByteSize : Nat)⟩]
  reading : ∀ more, scan file offset (before ++ (text.toList ++ more)) =
    earlier ++ scan file start (text.toList ++ more)

namespace Ending

variable {file : String} {offset : Nat} {characters : List Char} {tokens : List Token}

def last (ending : Ending file offset characters tokens) : Token :=
  ⟨ending.kind, ending.text,
    .between file ending.start (ending.start + ending.text.utf8ByteSize : Nat)⟩

theorem split (ending : Ending file offset characters tokens) :
    tokens = ending.earlier ++ [ending.last] :=
  ending.tokens_eq

/-- A text with tokens ends in one. -/
theorem of_covers (covers : Covers file offset characters tokens) :
    (tokens = [] ∧ ∀ c ∈ characters, isGap c = true) ∨
      Nonempty (Ending file offset characters tokens) := by
  induction covers with
  | gap gaps => exact .inl ⟨rfl, gaps⟩
  | @token before begins offset kind text rest tokens gaps start isLexeme others ih =>
      rcases ih with ⟨rfl, after⟩ | nonempty
      · refine .inr ⟨before, [], begins, kind, text, rest, isLexeme, after, start, rfl, rfl, ?_⟩
        intro more
        rw [scan_gaps _ gaps, start, List.nil_append]
      · obtain ⟨ending⟩ := nonempty
        have place : ending.start =
            offset + byteLength (before ++ (text.toList ++ ending.before)) := by
          simp only [ending.place, start, byteLength_append, byteLength_toList, Nat.add_assoc]
        refine .inr ⟨before ++ (text.toList ++ ending.before),
          ⟨kind, text, .between file begins (begins + text.utf8ByteSize : Nat)⟩ :: ending.earlier,
          ending.start, ending.kind, ending.text, ending.after, ending.isLexeme, ending.gaps,
          place, ?_, ?_, fun more => ?_⟩
        · simp only [ending.whole, List.append_assoc]
        · rw [List.cons_append, ← ending.tokens_eq]
        · -- The token before sees the start of the last one at most.
          have next : rest.head? = (ending.before ++ (ending.text.toList ++ more)).head? := by
            obtain ⟨first, others, same⟩ := List.exists_cons_of_ne_nil ending.isLexeme.text_ne_nil
            cases same_before : ending.before <;> simp [ending.whole, same, same_before]
          rw [List.append_assoc, scan_gaps _ gaps, List.append_assoc, ← start,
            (IsLexeme.reads (next ▸ isLexeme)).scan_eq, ending.reading, List.cons_append]

theorem size (ending : Ending file offset characters tokens) :
    offset + byteLength characters =
      ending.start + ending.text.utf8ByteSize + byteLength ending.after := by
  rw [congrArg byteLength ending.whole, ending.place]
  simp only [byteLength_append, byteLength_toList, Nat.add_assoc]

/-- More text leaves the tokens as they are if the last of them ends before it. -/
theorem scan_append_iff (ending : Ending file offset characters tokens) (more : List Char) :
    scan file offset (characters ++ more) =
        tokens ++ scan file (offset + byteLength characters) more ↔
      IsLexeme ending.kind ending.text (ending.after ++ more).head? := by
  have together : scan file offset (characters ++ more) =
      ending.earlier ++ scan file ending.start (ending.text.toList ++ (ending.after ++ more)) := by
    rw [← ending.reading]
    simp only [ending.whole, List.append_assoc]
  have apart : tokens ++ scan file (offset + byteLength characters) more =
      ending.earlier ++ (ending.last ::
        scan file (ending.start + ending.text.utf8ByteSize) (ending.after ++ more)) := by
    rw [ending.size, scan_gaps more ending.gaps, List.append_cons, ← ending.split]
  rw [together, apart, List.append_cancel_left_eq]
  exact ending.isLexeme.scan_iff file ending.start (ending.after ++ more)

end Ending

/-- A lexeme of the first text would go on in the second one: letters meet letters, digits meet
digits, or a single sign meets what would double it. -/
inductive Straddles (first second : String) (file : Option String) : Prop
  | word (last : first.toList.getLast? = some c) (next : second.toList.head? = some d)
      (letters : isWordCharacter c = true ∧ isWordCharacter d = true)
  | numeral (last : first.toList.getLast? = some c) (next : second.toList.head? = some d)
      (digits : c.isDigit = true ∧ d.isDigit = true)
  | sign (last : (tokenize first file).dropLast.getLast? = some token)
      (single : token.kind = .assignment ∨ token.kind = .not)
      (touches : token.span.stop.offset = first.utf8ByteSize)
      (next : second.toList.head? = some '=')

theorem tokenize_dropLast (source : String) (file : Option String) :
    (tokenize source file).dropLast =
      scan (file.getD Lexer.defaultFile) 0 source.toList :=
  List.dropLast_concat

/-- The end of input is where it should be, so that it is the tokens before it that matter. -/
theorem tokenize_append_iff_scan (first second : String) (file : Option String) :
    tokenize (first ++ second) file =
        (tokenize first file).dropLast ++
          (tokenize second file).map (·.relocate (·.shift first.utf8ByteSize)) ↔
      scan (file.getD Lexer.defaultFile) 0 (first.toList ++ second.toList) =
        scan (file.getD Lexer.defaultFile) 0 first.toList ++
          scan (file.getD Lexer.defaultFile) (0 + byteLength first.toList) second.toList := by
  have shifted : (tokenize second file).map (·.relocate (·.shift first.utf8ByteSize)) =
      scan (file.getD Lexer.defaultFile) (0 + byteLength first.toList) second.toList ++
        [.endOfInput (file.getD Lexer.defaultFile) (first ++ second).utf8ByteSize] := by
    rw [byteLength_toList, scan_shift, String.utf8ByteSize_append, Nat.add_comm,
      ← Token.relocate_endOfInput]
    exact List.map_append
  have whole : tokenize (first ++ second) file =
      scan (file.getD Lexer.defaultFile) 0 (first.toList ++ second.toList) ++
        [.endOfInput (file.getD Lexer.defaultFile) (first ++ second).utf8ByteSize] := by
    rw [← String.toList_append]
    rfl
  rw [tokenize_dropLast, shifted, whole, ← List.append_assoc, List.append_left_inj]

/-- Nothing goes on after a gap. -/
theorem not_straddles_of_gap {first second : String} {file : Option String}
    (gap : ∀ c ∈ first.toList.getLast?, isGap c = true)
    (before : ∀ token, (tokenize first file).dropLast.getLast? = some token →
      token.span.stop.offset ≠ first.utf8ByteSize) :
    ¬ Straddles first second file := by
  intro straddles
  cases straddles with
  | word last _ letters =>
      exact absurd (gap _ last) (by simp [solid_of_isWordCharacter letters.1])
  | numeral last _ digits =>
      exact absurd (gap _ last) (by simp [(solid_of_isDigit digits.1).1])
  | sign last _ touches => exact before _ last touches

/-- A lexeme at the very end is what a straddling one starts with. -/
theorem straddles_iff_goesOn {first second : String} {file : Option String} {token : Token}
    {c : Char} (ends : first.toList.getLast? = some c)
    (last : (tokenize first file).dropLast.getLast? = some token)
    (touches : token.span.stop.offset = first.utf8ByteSize) :
    Straddles first second file ↔ ∃ d ∈ second.toList.head?, GoesOn token.kind c d := by
  constructor
  · intro straddles
    cases straddles with
    | word found next letters =>
        cases ends.symm.trans found
        exact ⟨_, next, .word letters⟩
    | numeral found next digits =>
        cases ends.symm.trans found
        exact ⟨_, next, .numeral digits⟩
    | sign found single _ next =>
        cases last.symm.trans found
        exact ⟨_, next, .sign single rfl⟩
  · rintro ⟨d, next, goesOn⟩
    cases goesOn with
    | word letters => exact .word ends next letters
    | numeral digits => exact .numeral ends next digits
    | sign single doubled => exact .sign last single touches (doubled ▸ next)

/-- The last lexeme of a text is one before the next text unless it straddles the seam. -/
theorem not_straddles_iff {first second : String} {file : Option String}
    (ending : Ending (file.getD Lexer.defaultFile) 0 first.toList
      (scan (file.getD Lexer.defaultFile) 0 first.toList))
    (small : first.utf8ByteSize ≤ Position.lastOffset) :
    ¬ Straddles first second file ↔
      IsLexeme ending.kind ending.text (ending.after ++ second.toList).head? := by
  have last : (tokenize first file).dropLast.getLast? = some ending.last := by
    rw [tokenize_dropLast]
    exact (congrArg List.getLast? ending.split).trans List.getLast?_concat
  have size := ending.size
  rw [Nat.zero_add, byteLength_toList] at size
  have stop : ending.last.span.stop.offset = ending.start + ending.text.utf8ByteSize :=
    Position.clamp_natCast_of_le (by omega)
  have isLexeme := ending.isLexeme
  have gaps := ending.gaps
  have whole := ending.whole
  cases same : ending.after with
  | nil =>
      rw [same] at size whole
      obtain ⟨c, final⟩ : ∃ c, ending.text.toList.getLast? = some c :=
        ⟨_, List.getLast?_eq_some_getLast isLexeme.text_ne_nil⟩
      have ends : first.toList.getLast? = some c := by
        rw [whole, List.append_nil, List.getLast?_append, final]
        rfl
      have touches : ending.last.span.stop.offset = first.utf8ByteSize := by
        rw [stop, size, byteLength_nil, Nat.add_zero]
      rw [straddles_iff_goesOn ends last touches, List.nil_append]
      exact ⟨fun apart => isLexeme.of_not_goesOn final fun d next goesOn =>
          apart ⟨d, next, goesOn⟩,
        fun here ⟨d, next, goesOn⟩ => here.not_goesOn final d next goesOn⟩
  | cons gap others =>
      rw [same] at size whole isLexeme gaps
      have final := List.getLast?_eq_some_getLast (List.cons_ne_nil gap others)
      have ends : first.toList.getLast? = some ((gap :: others).getLast (by simp)) := by
        rw [whole, List.getLast?_append, List.getLast?_append, final]
        rfl
      refine iff_of_true (not_straddles_of_gap (fun c found => ?_) fun token found => ?_) isLexeme
      · cases ends.symm.trans found
        exact gaps _ (List.mem_of_getLast? final)
      · cases last.symm.trans found
        have least := Char.utf8Size_pos gap
        rw [byteLength_cons] at size
        omega

/-- Texts are tokenized one after the other unless a lexeme straddles the seam. -/
theorem tokenize_append_iff (first second : String) (file : Option String)
    (small : (first ++ second).utf8ByteSize < 4294967296) :
    tokenize (first ++ second) file =
        (tokenize first file).dropLast ++
          (tokenize second file).map (·.relocate (·.shift first.utf8ByteSize)) ↔
      ¬ Straddles first second file := by
  have least : first.utf8ByteSize ≤ Position.lastOffset := by
    rw [String.utf8ByteSize_append] at small
    exact Nat.le_of_lt_succ (Nat.lt_of_le_of_lt (Nat.le_add_right _ _) small)
  rw [tokenize_append_iff_scan]
  rcases Ending.of_covers (.scan (file.getD Lexer.defaultFile) 0 first.toList) with
    ⟨empty, gaps⟩ | nonempty
  · rw [scan_append_of_nil _ empty, empty]
    refine iff_of_true rfl (not_straddles_of_gap (fun c final => gaps c ?_) fun token last => ?_)
    · exact List.mem_of_getLast? final
    · rw [tokenize_dropLast, empty] at last
      cases last
  · obtain ⟨ending⟩ := nonempty
    rw [ending.scan_append_iff, not_straddles_iff ending least]

theorem tokenize_append_iff_signs :
    tokenize ("a ==" ++ "=b") none =
        (tokenize "a ==" none).dropLast ++
          (tokenize "=b" none).map (·.relocate (·.shift "a ==".utf8ByteSize)) ∧
      tokenize ("a =" ++ "=b") none ≠
        (tokenize "a =" none).dropLast ++
          (tokenize "=b" none).map (·.relocate (·.shift "a =".utf8ByteSize)) := by
  constructor
  · refine (tokenize_append_iff "a ==" "=b" none (by decide)).2 fun straddles => ?_
    have pair : (tokenize "a ==" none).dropLast.getLast? =
        some ⟨.equals, "==", .between "shell" 2 4⟩ := by decide +kernel
    cases straddles with
    | word last _ letters => cases last; exact absurd letters.1 (by decide)
    | numeral last _ digits => cases last; exact absurd digits.1 (by decide)
    | sign last single => cases pair.symm.trans last; simp at single
  · have single : (tokenize "a =" none).dropLast.getLast? =
        some ⟨.assignment, "=", .between "shell" 2 3⟩ := by decide +kernel
    exact fun same => (tokenize_append_iff "a =" "=b" none (by decide)).1 same
      (.sign single (.inl rfl) rfl rfl)

end Monkey
