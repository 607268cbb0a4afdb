import Monkey.Token.Lexer

namespace Monkey

/-! What the tokens of a source look like. -/

namespace Kind

/-- A word is a name or of the kind of a reserved word. -/
theorem ofWord_ne {kind : Kind} (word : String) (other : kind ≠ .identifier)
    (free : ∀ entry ∈ reserved, entry.2 ≠ kind) : ofWord word ≠ kind := by
  unfold ofWord
  cases found : reserved.lookup word with
  | none => exact other.symm
  | some keyword =>
      obtain ⟨before, after, entries, _⟩ := List.lookup_eq_some_iff.1 found
      exact free (word, keyword) (by simp [entries])

theorem ofSymbol_ne_endOfInput (c : Char) : ofSymbol c ≠ .endOfInput := by
  unfold ofSymbol
  split <;> simp

end Kind

theorem Lexeme.read_kind_ne_endOfInput (first : Char) (rest : List Char) :
    (read first rest).kind ≠ .endOfInput := by
  unfold read
  split
  · exact Kind.ofWord_ne _ (by decide) (by decide)
  · split
    · simp
    · split
      · simp
      · simp
      · exact Kind.ofSymbol_ne_endOfInput _

theorem nextToken_kind_ne_endOfInput {file : String} {offset : Nat} {characters : List Char}
    {scanned : Scanned} (found : nextToken file offset characters = some scanned) :
    scanned.token.kind ≠ .endOfInput := by
  unfold nextToken at found
  split at found
  · cases found
  · cases found
    exact Lexeme.read_kind_ne_endOfInput _ _

/-- Only the token after the last one is the end of input. -/
theorem scan_kind_ne_endOfInput (file : String) (offset : Nat) (characters : List Char) :
    ∀ token ∈ scan file offset characters, token.kind ≠ .endOfInput := by
  fun_induction scan file offset characters with
  | case1 => simp
  | case2 offset characters scanned found ih =>
      intro token member
      rcases List.mem_cons.1 member with rfl | later
      · exact nextToken_kind_ne_endOfInput found
      · exact ih token later

theorem scan_eq (file : String) (offset : Nat) (characters : List Char) :
    scan file offset characters =
      match nextToken file offset characters with
      | none => []
      | some scanned => scanned.token :: scan file scanned.offset scanned.rest := by
  rw [scan]
  split <;> rename_i found <;> simp only [found]

theorem scan_nil (file : String) (offset : Nat) : scan file offset [] = [] := by
  rw [scan_eq]
  rfl

theorem scan_gap {file : String} {offset : Nat} {c : Char} {rest : List Char}
    (gap : isGap c = true) :
    scan file offset (c :: rest) = scan file (offset + c.utf8Size) rest := by
  have same : nextToken file offset (c :: rest) = nextToken file (offset + c.utf8Size) rest := by
    simp only [nextToken, List.dropWhile_cons, List.takeWhile_cons, gap, if_true, byteLength_cons,
      Nat.add_assoc]
  rw [scan_eq, same, ← scan_eq]

theorem scan_gaps {file : String} {offset : Nat} {gaps : List Char} (rest : List Char)
    (all : ∀ c ∈ gaps, isGap c = true) :
    scan file offset (gaps ++ rest) = scan file (offset + byteLength gaps) rest := by
  induction gaps generalizing offset with
  | nil => rfl
  | cons c gaps ih =>
      obtain ⟨gap, others⟩ := List.forall_mem_cons.1 all
      rw [List.cons_append, scan_gap gap, ih others, byteLength_cons, Nat.add_assoc]

theorem scan_solid {file : String} {offset : Nat} {first : Char} {rest : List Char}
    (solid : isGap first = false) :
    scan file offset (first :: rest) =
      ⟨(Lexeme.read first rest).kind, String.ofList (Lexeme.read first rest).characters,
        .between file offset (offset + byteLength (Lexeme.read first rest).characters : Nat)⟩ ::
      scan file (offset + byteLength (Lexeme.read first rest).characters)
        (Lexeme.read first rest).rest := by
  rw [scan_eq]
  simp [nextToken, solid]

end Monkey
