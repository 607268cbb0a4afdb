import Monkey.Diagnostic.Report
import Monkey.Proofs.Parser.Progress
import Monkey.Proofs.Parser.Reporting
import Monkey.Proofs.Source.Line
import Monkey.Proofs.Text.Row
import Monkey.Proofs.Token.Lossless

namespace Monkey

/-! Every diagnostic of a source can be shown against it.

It stands at a token, so that there is a line to show, and nothing that is put in a row of its
report breaks the row: of the source as it is only the text of a token and a line are shown.
-/

open Text

/-- What the advice quotes fits in a row. -/
def Cause.Fits : Cause → Prop
  | .noExpression _ text => IsRow text
  | _ => True

namespace Cause

@[simp] theorem isRow_message (cause : Cause) : IsRow cause.message := by
  delta message
  cases cause with
  | expectedToken =>
      simp only [isRow_append, Kind.isRow_name, and_true]
      decide
  | noExpression =>
      simp only [isRow_append, Kind.isRow_name, isRow_quoted, and_true]
      decide
  | integerOutOfRange =>
      simp only [isRow_append, isRow_quoted, and_true]
      decide
  | nestedTooDeep =>
      simp only [isRow_append, Nat.toString_eq_repr, isRow_repr, and_true]
      decide

theorem isRow_tip {cause : Cause} (fits : cause.Fits) : IsRow cause.tip.text := by
  unfold tip
  split
  · decide
  · simp only [Tip.text, isRow_append, Kind.isRow_name, and_true]
    decide
  · decide
  · have quoted : IsRow _ := fits
    simp only [Tip.text, isRow_append, quoted, and_true]
    decide
  · decide
  · decide

end Cause

namespace Line

variable {number offset : Nat} {characters : List Char}

/-- The line feed that ends a line is white space, and is not shown. -/
theorem isRow_shown : IsRow (find number offset characters).shown := by
  obtain ⟨body, free, text⟩ := find_text number offset characters
  have kept : '\n' ∉ body.dropWhile isIndent :=
    fun member => free ((List.dropWhile_sublist _).subset member)
  rw [shown, isRow_ofList]
  rcases text with text | text
  · rw [text, String.toList_ofList]
    exact lineFeed_not_mem_trimEnd kept
  · have ended : (body ++ ['\n']).dropWhile isIndent = body.dropWhile isIndent ++ ['\n'] := by
      rw [List.dropWhile_append]
      split
      · rename_i nothing
        rw [List.isEmpty_iff.1 nothing]
        rfl
      · rfl
    have blank : ∀ c ∈ ['\n'], isBlank c = true := List.forall_mem_singleton.2 rfl
    rw [text, String.toList_ofList, ended, trimEnd_append_of_blank blank]
    exact lineFeed_not_mem_trimEnd kept

theorem isRow_gutter (line : Line) : IsRow line.gutter :=
  isRow_append.2 ⟨isRow_replicate (by decide), by decide⟩

theorem isRow_caret (line : Line) : IsRow line.caret :=
  isRow_append.2 ⟨isRow_replicate (by decide), by decide⟩

theorem isRow_rows : ∀ row ∈ (find number offset characters).rows, IsRow row := by
  have bar : IsRow " | " := by decide
  have space : IsRow " " := by decide
  simp [rows, isRow_gutter, isRow_caret, isRow_shown, bar, space]

end Line

namespace Diagnostic

variable {diagnostic : Diagnostic}

theorem isRow_headline (fits : diagnostic.cause.Fits) : IsRow diagnostic.headline := by
  have tip := Cause.isRow_tip fits
  have start : IsRow "Error: " := by decide
  have opening : IsRow " (" := by decide
  have closing : IsRow ")" := by decide
  unfold headline
  split
  · simp [start]
  · rename_i text advice
    rw [advice] at tip
    simpa [start, opening, closing, Tip.text] using tip

theorem isRow_rows {source : String} (fits : diagnostic.cause.Fits)
    (named : IsRow diagnostic.position.file) : ∀ row ∈ diagnostic.rows source, IsRow row := by
  have arrow : IsRow "-> " := by decide
  have heading : ∀ row ∈ [diagnostic.headline, "-> " ++ diagnostic.position.file], IsRow row := by
    simp [isRow_headline fits, arrow, named]
  unfold rows
  split
  · exact heading
  · rename_i line found
    rw [eq_find_of_lineAt found]
    exact List.forall_mem_append.2 ⟨heading, Line.isRow_rows⟩

end Diagnostic

theorem Cause.Stops.fits {table : Table} {token : Token} {cause : Cause}
    (stops : cause.Stops table token) (row : IsRow token.text) : cause.Fits := by
  cases stops with
  | unregistered => exact row
  | unexpected | tooDeep => trivial

/-- What is said of a token of a source stands there, and fits in a row as the token does. -/
theorem Parser.Reports.shown {source : String} {file : Option String} {diagnostic : Diagnostic}
    (reports : (ofSource source file).Reports diagnostic) :
    (∃ token ∈ tokenize source file, diagnostic.position = token.span.start) ∧
      diagnostic.cause.Fits := by
  obtain ⟨index, speaks⟩ := reports
  have member := @Parser.token_mem_tokenize source file index
  rcases speaks with stops | excess
  · exact ⟨⟨_, member, stops.place⟩, stops.cause.fits (tokenize_isRow _ member)⟩
  · unfold Token.excess at excess
    split at excess
    · rw [List.mem_singleton.1 excess]
      exact ⟨⟨_, member, rfl⟩, trivial⟩
    · cases excess

/-- Every diagnostic of a source stands at one of its tokens, so that there is a line to show, and
its report consists of five rows, whatever is shown in them. -/
theorem diagnostics_shown {source : String} {file : Option String}
    (named : '\n' ∉ (file.getD "shell").toList) :
    ∃ program after, parse source file = .ok program after ∧
      ∀ diagnostic ∈ after.diagnostics,
        (∃ token ∈ tokenize source file, diagnostic.position = token.span.start) ∧
        diagnostic.position.file = file.getD "shell" ∧
        (∃ line, lineAt source diagnostic.position.offset = some line) ∧
        ∃ rows : List String, rows.length = 5 ∧ (∀ row ∈ rows, '\n' ∉ row.toList) ∧
          diagnostic.report source = String.join (rows.map (· ++ "\n")) := by
  obtain ⟨program, count, recorded, parsed, _, reports⟩ :=
    ((parse_certain source file).and (parse_truthful source file)).succeeds
      (fun _ _ _ both => both.1) fun both => both.1
  refine ⟨program, _, parsed, ?_⟩
  intro diagnostic member
  rw [Array.mem_def, Parser.beyond_diagnostics] at member
  obtain ⟨⟨token, among, place⟩, fits⟩ := (reports diagnostic member).shown
  obtain ⟨offset, inside, start⟩ := tokenize_start token among
  have position := place.trans start
  obtain ⟨line, found⟩ : ∃ line, lineAt source diagnostic.position.offset = some line := by
    apply exists_lineAt
    rw [position, Position.clamp_natCast]
    exact Nat.le_trans (Nat.min_le_left _ _) inside
  have origin : diagnostic.position.file = file.getD Lexer.defaultFile := by rw [position]
  refine ⟨⟨token, among, place⟩, origin, ⟨line, found⟩, diagnostic.rows source, ?_, ?_, rfl⟩
  · simp [Diagnostic.rows, found, Line.rows]
  · exact Diagnostic.isRow_rows fits (by rw [origin]; exact named)

/-- A name is missing where the source ends, in the empty line after its line feed. -/
theorem diagnostics_shown_finish :
    '\n' ∉ ((some "main.mk").getD "shell").toList ∧
    ∃ program after diagnostic, parse "let\n" (some "main.mk") = .ok program after ∧
      diagnostic ∈ after.diagnostics ∧ diagnostic.position = ⟨4, "main.mk"⟩ ∧
      ∃ rows : List String, rows.length = 5 ∧ (∀ row ∈ rows, '\n' ∉ row.toList) ∧
        diagnostic.report "let\n" = String.join (rows.map (· ++ "\n")) := by
  have named : '\n' ∉ ((some "main.mk").getD "shell").toList := by decide
  obtain ⟨program, after, parsed, shown⟩ := @diagnostics_shown "let\n" (some "main.mk") named
  have recorded : (⟨4, "main.mk"⟩ : Position) ∈ match parse "let\n" (some "main.mk") with
      | .ok _ after => after.diagnostics.toList.map Diagnostic.position
      | _ => [] := by
    decide +kernel
  rw [parsed] at recorded
  have place : ⟨4, "main.mk"⟩ ∈ after.diagnostics.toList.map Diagnostic.position := recorded
  obtain ⟨diagnostic, member, position⟩ := List.mem_map.1 place
  have among : diagnostic ∈ after.diagnostics := Array.mem_def.2 member
  obtain ⟨_, _, _, rows⟩ := shown diagnostic among
  exact ⟨named, program, after, diagnostic, parsed, among, position, rows⟩

end Monkey
