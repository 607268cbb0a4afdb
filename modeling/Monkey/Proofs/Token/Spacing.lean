import Monkey.Proofs.Token.Seam

namespace Monkey

/-! Tokens that are written out again.

A lexeme is the same lexeme at the end of a text and before any gap, whatever stood after it in
its source.  So the texts of tokens, with gaps between them, are read as these tokens.
-/

theorem IsLexeme.before_gap {kind : Kind} {text : String} {next other : Option Char}
    (isLexeme : IsLexeme kind text other) (gap : ∀ c ∈ next, isGap c = true) :
    IsLexeme kind text next := by
  have ends := List.getLast?_eq_some_getLast isLexeme.text_ne_nil
  refine isLexeme.of_not_goesOn ends fun c member goesOn => ?_
  exact Bool.false_ne_true (goesOn.solid.symm.trans (gap c member))

/-- Tokens written one after another, each with a separator after it. -/
def spaced : (pieces : List (Token × String)) → String
  | [] => ""
  | (token, separator) :: pieces => token.text ++ (separator ++ spaced pieces)

/-- A token is followed by its separator, which is empty only where the text ends. -/
theorem gap_of_spaced {token : Token} {separator : String} {pieces : List (Token × String)}
    (gap : ∀ c ∈ separator.toList, isGap c = true)
    (apart : ∀ piece ∈ ((token, separator) :: pieces).dropLast, piece.2 ≠ "") :
    ∀ c ∈ (separator.toList ++ (spaced pieces).toList).head?, isGap c = true := by
  intro c member
  cases same : separator.toList with
  | cons first others =>
      rw [same] at member gap
      obtain rfl : first = c := by simpa using member
      exact gap first List.mem_cons_self
  | nil =>
      cases pieces with
      | nil => rw [same] at member; cases member
      | cons =>
          have nonempty : separator ≠ "" := apart (token, separator) (by simp)
          exact absurd (String.toList_eq_nil_iff.1 same) nonempty

theorem scan_spaced {pieces : List (Token × String)} (file : String) (offset : Nat)
    (lexemes : ∀ piece ∈ pieces, ∃ next, IsLexeme piece.1.kind piece.1.text next)
    (gaps : ∀ piece ∈ pieces, ∀ c ∈ piece.2.toList, isGap c = true)
    (apart : ∀ piece ∈ pieces.dropLast, piece.2 ≠ "") :
    (scan file offset (spaced pieces).toList).map (fun token => (token.kind, token.text)) =
      pieces.map fun piece => (piece.1.kind, piece.1.text) := by
  induction pieces generalizing offset with
  | nil => rw [spaced, String.toList_empty, scan_nil]; rfl
  | cons piece pieces ih =>
      obtain ⟨token, separator⟩ := piece
      obtain ⟨⟨next, isLexeme⟩, lexemes⟩ := List.forall_mem_cons.1 lexemes
      obtain ⟨gap, gaps⟩ := List.forall_mem_cons.1 gaps
      have before := gap_of_spaced gap apart
      have others : ∀ piece ∈ pieces.dropLast, piece.2 ≠ "" := by
        intro piece member
        cases pieces with
        | nil => cases member
        | cons => exact apart piece (List.mem_cons_of_mem _ member)
      rw [spaced, String.toList_append, String.toList_append,
        (isLexeme.before_gap before).reads.scan_eq, scan_gaps _ gap, List.map_cons, List.map_cons,
        ih _ lexemes gaps others]

/-- The texts of the tokens of a source are read as the same tokens again, however they are set
apart: all that is needed is a gap between each two. -/
theorem tokenize_spaced {source : String} {file other : Option String} {first : String}
    {pieces : List (Token × String)}
    (written : pieces.map Prod.fst = (tokenize source file).dropLast)
    (gaps : ∀ separator ∈ first :: pieces.map Prod.snd, ∀ c ∈ separator.toList,
      c = ' ' ∨ c = '\t' ∨ c = '\r' ∨ c = '\n')
    (apart : ∀ piece ∈ pieces.dropLast, piece.2 ≠ "") :
    tokensAlike (tokenize (first ++ spaced pieces) other) (tokenize source file) = true ∧
      ∃ tokens, tokenize (first ++ spaced pieces) other = tokens ++
          [.endOfInput (other.getD "shell") (first ++ spaced pieces).utf8ByteSize] ∧
        ∀ token ∈ tokens, token.kind ≠ .endOfInput := by
  have white : ∀ separator ∈ first :: pieces.map Prod.snd, ∀ c ∈ separator.toList,
      isGap c = true :=
    fun separator among c member => decide_eq_true (gaps separator among c member)
  obtain ⟨leading, between⟩ := List.forall_mem_cons.1 white
  rw [tokenize_dropLast] at written
  have covers := Covers.scan (file.getD Lexer.defaultFile) 0 source.toList
  have lexemes : ∀ piece ∈ pieces, ∃ next, IsLexeme piece.1.kind piece.1.text next := by
    intro piece member
    obtain ⟨rest, isLexeme⟩ := covers.isLexeme piece.1 (written ▸ List.mem_map_of_mem member)
    exact ⟨_, isLexeme⟩
  have between : ∀ piece ∈ pieces, ∀ c ∈ piece.2.toList, isGap c = true :=
    fun piece member => between _ (List.mem_map_of_mem member)
  refine ⟨tokensAlike_iff.2 ?_, _, rfl, scan_kind_ne_endOfInput _ _ _⟩
  have again := scan_spaced (other.getD Lexer.defaultFile)
    (0 + byteLength first.toList) lexemes between apart
  rw [← scan_gaps _ leading, ← String.toList_append] at again
  have same : pieces.map (fun piece => (piece.1.kind, piece.1.text)) =
      (scan (file.getD Lexer.defaultFile) 0 source.toList).map
        fun token => (token.kind, token.text) := by
    rw [← written, List.map_map]
    rfl
  rw [tokenize, tokenize, List.map_append, List.map_append]
  exact congrArg (· ++ [(Kind.endOfInput, "")]) (again.trans same)

theorem tokenize_spaced_signs :
    ∃ pieces : List (Token × String),
      pieces.map Prod.fst = (tokenize "é===9" none).dropLast ∧
      (∀ separator ∈ "\t" :: pieces.map Prod.snd, ∀ c ∈ separator.toList,
        c = ' ' ∨ c = '\t' ∨ c = '\r' ∨ c = '\n') ∧
      (∀ piece ∈ pieces.dropLast, piece.2 ≠ "") ∧ "\t" ++ spaced pieces = "\té == =\r\n9" ∧
      tokensAlike (tokenize "\té == =\r\n9" none) (tokenize "é===9" none) = true := by
  have written : [(⟨.illegal, "é", .between "shell" 0 2⟩, " "),
      (⟨.equals, "==", .between "shell" 2 4⟩, " "),
      (⟨.assignment, "=", .between "shell" 4 5⟩, "\r\n"),
      (⟨.integer, "9", .between "shell" 5 6⟩, "")].map Prod.fst =
        (tokenize "é===9" none).dropLast := by
    decide +kernel
  have gaps : ∀ separator ∈ ["\t", " ", " ", "\r\n", ""], ∀ c ∈ separator.toList,
      c = ' ' ∨ c = '\t' ∨ c = '\r' ∨ c = '\n' := by
    simp
  exact ⟨_, written, gaps, by decide +kernel, by decide +kernel,
    (@tokenize_spaced _ none none "\t" _ written gaps (by decide +kernel)).1⟩

end Monkey
