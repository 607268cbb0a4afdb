import Monkey.Proofs.Diagnostic.Alignment

namespace Monkey

/-! Where the caret stands in characters.

A row is read in characters, but the caret has a dash for every byte before it.  And white space
that ends a line is not shown, although some of it is no gap and so can be at fault.  The caret
stands below the first character of a token exactly where neither of these matters.
-/

open Text

namespace Line

/-- A line cut at its column: the spaces and tabs that start it, what else comes before the column,
and the rest. -/
structure Cut (line : Line) (indentation ahead rest : String) : Prop where
  whole : line.text = indentation ++ ahead ++ rest
  column : line.column = (indentation ++ ahead).utf8ByteSize
  indented : ∀ c ∈ indentation.toList, c = ' ' ∨ c = '\t'
  longest : ∀ c ∈ (ahead ++ rest).toList.head?, ¬ (c = ' ' ∨ c = '\t')

end Line

/-- The row goes on after `before` with the first character of `rest`, and the caret of the row
below has as many characters before it. -/
def PointsAt (before rest row caret : String) : Prop :=
  (∃ first ∈ rest.toList.head?, before.toList ++ [first] <+: row.toList) ∧
    caret.toList.idxOf? '^' = some before.length

/-- A caret that points at something in the row is not past its end. -/
theorem PointsAt.lt_length {before rest row caret : String} {index : Nat}
    (points : PointsAt before rest row caret) (place : caret.toList.idxOf? '^' = some index) :
    index < row.length := by
  obtain ⟨⟨first, _, inside⟩, below⟩ := points
  obtain rfl := Option.some.inj (place.symm.trans below)
  have shorter := inside.length_le
  simp only [List.length_append, List.length_singleton, String.length_toList] at shorter
  omega

namespace Line

variable {line : Line} {indentation ahead rest : String}

/-- What a report leaves out at the start of the line is its indentation. -/
theorem Cut.takeWhile (cut : line.Cut indentation ahead rest) :
    line.text.toList.takeWhile isIndent = indentation.toList ∧
      line.text.toList.dropWhile isIndent = ahead.toList ++ rest.toList := by
  have spaces : ∀ c ∈ indentation.toList, isIndent c = true :=
    fun c member => decide_eq_true (cut.indented c member)
  have stops : ∀ c ∈ (ahead ++ rest).toList.head?, isIndent c = false :=
    fun c first => decide_eq_false (cut.longest c first)
  have split := takeWhile_append spaces stops
  rwa [← String.toList_append, ← String.append_assoc, ← cut.whole, String.toList_append] at split

theorem Cut.column_sub_indent (cut : line.Cut indentation ahead rest) :
    line.column - line.indent = byteLength ahead.toList := by
  rw [cut.column, indent, cut.takeWhile.1, byteLength_toList, byteLength_toList,
    String.utf8ByteSize_append, Nat.add_sub_cancel_left]

theorem Cut.shown (cut : line.Cut indentation ahead rest) :
    line.shown.toList = trimEnd (ahead.toList ++ rest.toList) := by
  rw [Line.shown, cut.takeWhile.2, String.toList_ofList]

section Numbered

variable (numbered : 0 < line.number)
include numbered

theorem caret_index : (line.gutter ++ " " ++ line.caret).toList.idxOf? '^' =
    some (line.digits + 3 + (line.column - line.indent)) := by
  rw [toList_caretRow numbered, idxOf?_append_cons (by simp), Option.some_inj]
  simp only [List.length_append, List.length_replicate, List.length_cons, List.length_nil]
  omega

theorem length_margin : (toString line.number ++ " | ").length = line.digits + 3 := by
  rw [String.length_append, length_number numbered]
  rfl

/-- The caret of a line points at the character at the column exactly if that is not in the white
space that ends the line and nothing but ASCII comes between the indentation and the column. -/
theorem Cut.pointsAt_iff (cut : line.Cut indentation ahead rest) :
    PointsAt (toString line.number ++ " | " ++ ahead) rest
        (toString line.number ++ " | " ++ line.shown) (line.gutter ++ " " ++ line.caret) ↔
      (∃ c ∈ rest.toList, isBlank c = false) ∧ ∀ c ∈ ahead.toList, c.toNat < 128 := by
  apply and_congr
  · rw [← @isPrefix_trimEnd_iff ahead.toList, ← cut.shown]
    generalize toString line.number ++ " | " = margin
    simp only [String.toList_append, List.append_assoc, List.prefix_append_right_inj]
  · rw [caret_index numbered, cut.column_sub_indent, ← byteLength_eq_length_iff,
      String.length_append, length_margin numbered, String.length_toList]
    simp

end Numbered

end Line

theorem isIndent_of_not_isGap {c : Char} (solid : isGap c = false) : isIndent c = false := by
  simp only [isGap, isIndent, decide_eq_false_iff_not, not_or] at solid ⊢
  exact ⟨solid.1, solid.2.1⟩

/-- A token cuts the line that it stands in. -/
theorem Token.StandsAt.exists_cut {source file : String} {offset : Nat} {token : Token}
    (stands : token.StandsAt source file offset) (nonempty : token.text ≠ "")
    (solid : ∀ c ∈ token.text.toList, isGap c = false) :
    ∃ line indentation ahead rest, lineAt source offset = some line ∧
      line.Cut indentation ahead rest ∧ token.text.toList <+: rest.toList := by
  obtain ⟨_, found, after, rfl⟩ := isPrefix_of_slice stands.slice
  obtain ⟨before, whole, rfl⟩ := dropBytes_eq_some_iff.1 found
  obtain ⟨line, looked, text, column⟩ := lineAt_of_split whole
  have row : '\n' ∉ token.text.toList := fun feed => absurd (solid _ feed) (by decide)
  rw [restOfLine_append row] at text
  generalize headOfLine before = head at text column
  have stops : ∀ c ∈ (head.dropWhile isIndent ++ (token.text.toList ++ restOfLine after)).head?,
      isIndent c = false := by
    intro c first
    cases ahead : head.dropWhile isIndent with
    | nil =>
        obtain ⟨_, others, split⟩ :=
          List.exists_cons_of_ne_nil (mt String.toList_eq_nil_iff.1 nonempty)
        rw [ahead, split] at first
        cases first
        exact isIndent_of_not_isGap (solid c (by simp [split]))
    | cons _ others =>
        rw [ahead] at first
        cases first
        exact Lexeme.head_dropWhile c (by rw [ahead]; rfl)
  refine ⟨line, String.ofList (head.takeWhile isIndent), String.ofList (head.dropWhile isIndent),
    String.ofList (token.text.toList ++ restOfLine after), looked, ⟨?_, ?_, ?_, ?_⟩, ?_⟩
  · rw [← String.ofList_append, ← String.ofList_append, List.takeWhile_append_dropWhile, ← text,
      String.ofList_toList]
  · rw [column, ← String.ofList_append, List.takeWhile_append_dropWhile,
      byteLength_eq_utf8ByteSize]
  · intro c member
    rw [String.toList_ofList] at member
    exact of_decide_eq_true (List.all_eq_true.1 List.all_takeWhile c member)
  · rw [← String.ofList_append, String.toList_ofList]
    exact fun c first => of_decide_eq_false (stops c first)
  · rw [String.toList_ofList]
    exact List.prefix_append _ _

/-- The caret of a diagnostic stands below the first character of its token exactly if that
character is not in the white space that ends the line, and the line has only ASCII between its
indentation and the token.  Positions that had to be clamped are left out. -/
theorem caret_pointsAt_iff {source : String} {file : Option String}
    (named : '\n' ∉ (file.getD "shell").toList) :
    ∃ program after, parse source file = .ok program after ∧
      ∀ diagnostic ∈ after.diagnostics, ∀ token ∈ tokenize source file,
        token.kind ≠ .endOfInput → diagnostic.position = token.span.start →
        diagnostic.position.offset < Position.lastOffset →
        ∃ gutter row caret line indentation ahead rest,
          diagnostic.report source = String.join ([diagnostic.headline,
            "-> " ++ diagnostic.position.file, gutter, row, caret].map (· ++ "\n")) ∧
          (∀ each ∈ [diagnostic.headline, "-> " ++ diagnostic.position.file, gutter, row, caret],
            '\n' ∉ each.toList) ∧
          lineAt source diagnostic.position.offset = some line ∧
          line.Cut indentation ahead rest ∧
          token.text ≠ "" ∧ token.text.toList <+: rest.toList ∧
          (PointsAt (toString line.number ++ " | " ++ ahead) rest row caret ↔
            (∃ c ∈ rest.toList, isBlank c = false) ∧ ∀ c ∈ ahead.toList, c.toNat < 128) := by
  obtain ⟨program, count, recorded, parsed, _, reports⟩ :=
    ((parse_certain source file).and (parse_truthful source file)).succeeds
      (fun _ _ _ both => both.1) fun both => both.1
  refine ⟨program, _, parsed, ?_⟩
  intro diagnostic member token among present position held
  rw [Array.mem_def, Parser.beyond_diagnostics] at member
  obtain ⟨nonempty, solid, offset, stands⟩ := tokenize_standsAt among present
  have exactly : diagnostic.position = ⟨offset, file.getD Lexer.defaultFile⟩ := by
    rw [position] at held ⊢
    exact stands.start_of_lt held
  obtain ⟨line, indentation, ahead, rest, found, cut, leads⟩ := stands.exists_cut nonempty solid
  have numbered : 0 < line.number := by
    rw [(lineAt_between found).number]
    omega
  have rows : diagnostic.rows source =
      [diagnostic.headline, "-> " ++ diagnostic.position.file] ++ line.rows := by
    rw [Diagnostic.rows, exactly, found]
  have free : ∀ row ∈ diagnostic.rows source, IsRow row :=
    Diagnostic.isRow_rows (reports diagnostic member).shown.2 (by rw [exactly]; exact named)
  rw [rows] at free
  refine ⟨_, _, _, line, indentation, ahead, rest, ?_, free, ?_, cut, nonempty, leads,
    cut.pointsAt_iff numbered⟩
  · rw [Diagnostic.report, rows]
    rfl
  · rw [exactly]
    exact found

/-- A binding without its sign in an indented line, below a line that starts with an accented
letter. -/
theorem caret_pointsAt_iff_indented :
    '\n' ∉ ((none : Option String).getD "shell").toList ∧
    ∃ program after diagnostic token gutter row caret before rest,
      parse "é;\n\tlet b 2;" none = .ok program after ∧
      diagnostic ∈ after.diagnostics ∧ token ∈ tokenize "é;\n\tlet b 2;" none ∧
      token.text = "2" ∧ diagnostic.position = token.span.start ∧
      diagnostic.report "é;\n\tlet b 2;" = String.join (
        [diagnostic.headline, "-> shell", gutter, row, caret].map (· ++ "\n")) ∧
      token.text.toList <+: rest.toList ∧ PointsAt before rest row caret := by
  have named : '\n' ∉ ((none : Option String).getD "shell").toList := by decide
  have recorded : (⟨.expectedToken .assignment .integer, ⟨11, "shell"⟩⟩ : Diagnostic) ∈
      match parse "é;\n\tlet b 2;" none with
      | .ok _ after => after.diagnostics
      | _ => #[] := by
    decide +kernel
  have among : (⟨.integer, "2", ⟨⟨11, "shell"⟩, ⟨12, "shell"⟩⟩⟩ : Token) ∈
      tokenize "é;\n\tlet b 2;" none := by
    decide +kernel
  have held : 11 < Position.lastOffset := by decide
  have second : lineAt "é;\n\tlet b 2;" 11 = some ⟨2, "\tlet b 2;", 7⟩ := by decide +kernel
  have plain : "\tlet b 2;".toList.all (decide <| ·.toNat < 128) = true := by decide +kernel
  obtain ⟨program, after, parsed, each⟩ := @caret_pointsAt_iff "é;\n\tlet b 2;" none named
  rw [parsed] at recorded
  obtain ⟨gutter, row, caret, line, indentation, ahead, rest, report, _, found, cut, _, leads,
    exactly⟩ := each _ recorded _ among (by decide) rfl held
  obtain rfl := Option.some.inj (found.symm.trans second)
  have digit : '2' ∈ rest.toList := leads.subset (by decide)
  have whole : "\tlet b 2;" = indentation ++ ahead ++ rest := cut.whole
  have ascii : ∀ c ∈ ahead.toList, c.toNat < 128 := by
    intro c inside
    have member : c ∈ "\tlet b 2;".toList := by
      rw [whole]
      simp [inside]
    exact of_decide_eq_true (List.all_eq_true.1 plain c member)
  exact ⟨named, program, after, _, _, gutter, row, caret, _, rest, parsed, recorded, among, rfl,
    rfl, report, leads, exactly.2 ⟨⟨'2', digit, by decide⟩, ascii⟩⟩

/-- Behind an accented letter the caret stands one place past the token, and below an empty row if
the token is white space itself. -/
theorem caret_misses_token :
    (∃ program after diagnostic token, parse "é;)" none = .ok program after ∧
      diagnostic ∈ after.diagnostics ∧ token ∈ tokenize "é;)" none ∧
      token.kind = .closeParen ∧ diagnostic.position = token.span.start ∧
      diagnostic.report "é;)" = String.join (
        [diagnostic.headline, "-> shell", "  |", "1 | é;)", "  | ---^"].map (· ++ "\n"))) ∧
    (¬ ∃ before rest, PointsAt before rest "1 | é;)" "  | ---^") ∧
    (∃ program after diagnostic token, parse "\u00a0" none = .ok program after ∧
      diagnostic ∈ after.diagnostics ∧ token ∈ tokenize "\u00a0" none ∧
      token.kind = .illegal ∧ diagnostic.position = token.span.start ∧
      diagnostic.report "\u00a0" = String.join (
        [diagnostic.headline, "-> shell", "  |", "1 | ", "  | ^"].map (· ++ "\n"))) ∧
    ¬ ∃ before rest, PointsAt before rest "1 | " "  | ^" := by
  have closing : (⟨.noExpression .closeParen ")", ⟨3, "shell"⟩⟩ : Diagnostic) ∈
      match parse "é;)" none with
      | .ok _ after => after.diagnostics
      | _ => #[] := by
    decide +kernel
  have space : (⟨.noExpression .illegal "\u00a0", ⟨0, "shell"⟩⟩ : Diagnostic) ∈
      match parse "\u00a0" none with
      | .ok _ after => after.diagnostics
      | _ => #[] := by
    decide +kernel
  obtain ⟨program, _, _, parsed, _⟩ := (parse_certain "é;)" none).succeeds (fun _ _ _ => id) id
  obtain ⟨program', _, _, parsed', _⟩ :=
    (parse_certain "\u00a0" none).succeeds (fun _ _ _ => id) id
  rw [parsed] at closing
  rw [parsed'] at space
  refine ⟨⟨program, _, _, ⟨.closeParen, ")", ⟨⟨3, "shell"⟩, ⟨4, "shell"⟩⟩⟩, parsed, closing,
      by decide +kernel, rfl, rfl, by decide +kernel⟩, ?past,
    ⟨program', _, _, ⟨.illegal, "\u00a0", ⟨⟨0, "shell"⟩, ⟨2, "shell"⟩⟩⟩, parsed', space,
      by decide +kernel, rfl, rfl, by decide +kernel⟩, ?empty⟩
  case past =>
    rintro ⟨before, rest, points⟩
    have place : "  | ---^".toList.idxOf? '^' = some 7 := by decide
    exact absurd (points.lt_length place) (by decide)
  case empty =>
    rintro ⟨before, rest, points⟩
    have place : "  | ^".toList.idxOf? '^' = some 4 := by decide
    exact absurd (points.lt_length place) (by decide)

end Monkey
