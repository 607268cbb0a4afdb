import Mathlib.Data.Nat.Digits.Lemmas
import Monkey.Proofs.Diagnostic.Report
import Monkey.Proofs.Source.Lookup
import Monkey.Proofs.Token.Spelling

namespace Monkey

/-! Where the rows of a report stand below each other.

The gutter is as wide as the number of the line, and the caret is moved to the left by what is left
out at the start of the line, so that both come out at the same byte in each row.
-/

open Text

/-- A text cut in three: the spaces and tabs that start it, what is shown of it, and the white space
that ends it. -/
structure Trimmed (text indentation shown ending : String) : Prop where
  whole : text = indentation ++ shown ++ ending
  indented : ∀ c ∈ indentation.toList, c = ' ' ∨ c = '\t'
  longest : ∀ c ∈ (shown ++ ending).toList.head?, ¬ (c = ' ' ∨ c = '\t')
  blank : ∀ c ∈ ending.toList, isBlank c = true
  solid : ∀ c ∈ shown.toList.getLast?, isBlank c = false

/-- There is only one way to cut a text so. -/
theorem Trimmed.unique {text indentation shown ending lead middle rest : String}
    (trimmed : Trimmed text indentation shown ending) (other : Trimmed text lead middle rest) :
    indentation = lead ∧ shown = middle ∧ ending = rest := by
  have whole : indentation.toList ++ (shown ++ ending).toList =
      lead.toList ++ (middle ++ rest).toList := by
    rw [← String.toList_append, ← String.toList_append, ← String.append_assoc,
      ← String.append_assoc, ← trimmed.whole, ← other.whole]
  have spaces : ∀ c ∈ indentation.toList, isIndent c = true :=
    fun c member => decide_eq_true (trimmed.indented c member)
  have others : ∀ c ∈ lead.toList, isIndent c = true :=
    fun c member => decide_eq_true (other.indented c member)
  obtain ⟨first, left⟩ := run_eq_of_append spaces others
    (fun c member => decide_eq_false (trimmed.longest c member))
    (fun c member => decide_eq_false (other.longest c member)) whole
  -- The white space at the end is a run of the same sort, read backwards.
  have backwards := congrArg List.reverse left
  rw [String.toList_append, String.toList_append, List.reverse_append, List.reverse_append]
    at backwards
  obtain ⟨last, middle⟩ := run_eq_of_append
    (fun c member => trimmed.blank c (List.mem_reverse.1 member))
    (fun c member => other.blank c (List.mem_reverse.1 member))
    (fun c member => trimmed.solid c (List.head?_reverse ▸ member))
    (fun c member => other.solid c (List.head?_reverse ▸ member)) backwards
  exact ⟨String.toList_injective first, String.toList_injective (List.reverse_injective middle),
    String.toList_injective (List.reverse_injective last)⟩

/-- From a place in what is shown, the text goes on as what is shown does. -/
theorem Trimmed.isPrefix {text indentation shown ending : String} {column : Nat}
    (trimmed : Trimmed text indentation shown ending)
    (start : indentation.utf8ByteSize ≤ column)
    (stop : column ≤ indentation.utf8ByteSize + shown.utf8ByteSize) :
    (utf8 shown.toList).drop (column - indentation.utf8ByteSize) <+:
      (utf8 text.toList).drop column := by
  obtain ⟨inside, rfl⟩ := Nat.exists_eq_add_of_le start
  have size : inside ≤ (utf8 shown.toList).length := by
    rw [length_utf8, byteLength_toList]
    omega
  have lead : indentation.utf8ByteSize = (utf8 indentation.toList).length := by
    rw [length_utf8, byteLength_toList]
  refine ⟨utf8 ending.toList, ?_⟩
  rw [Nat.add_sub_cancel_left, trimmed.whole, lead, String.toList_append, String.toList_append,
    utf8_append, utf8_append, List.append_assoc, List.drop_length_add_append,
    List.drop_append_of_le_length size]

theorem length_repr {number : Nat} (positive : 0 < number) :
    number.repr.length = (Nat.digits 10 number).length := by
  have same {count : Nat} (some : 0 < count) :
      number.repr.length ≤ count ↔ (Nat.digits 10 number).length ≤ count :=
    (Nat.length_repr_le_iff some).trans (Nat.digits_length_le_iff (by decide) number).symm
  have digits : 0 < (Nat.digits 10 number).length :=
    List.length_pos_iff.2 (Nat.digits_ne_nil_iff_ne_zero.2 (Nat.ne_of_gt positive))
  exact Nat.le_antisymm ((same digits).2 (Nat.le_refl _))
    ((same Nat.length_repr_pos).1 (Nat.le_refl _))

namespace Line

/-- The number of decimal digits of the number. -/
def digits (line : Line) : Nat :=
  (Nat.digits 10 line.number).length

variable {line : Line}

theorem size_indent :
    (String.ofList (line.text.toList.takeWhile isIndent)).utf8ByteSize = line.indent :=
  (byteLength_eq_utf8ByteSize _).symm

theorem trimmed (line : Line) : Trimmed line.text
    (String.ofList (line.text.toList.takeWhile isIndent)) line.shown
    (String.ofList ((line.text.toList.dropWhile isIndent).reverse.takeWhile isBlank).reverse) where
  whole := by
    rw [shown, String.append_assoc, ← String.ofList_append, trimEnd_append, ← String.ofList_append,
      List.takeWhile_append_dropWhile, String.ofList_toList]
  indented := by
    intro c member
    rw [String.toList_ofList] at member
    exact of_decide_eq_true (List.all_eq_true.1 List.all_takeWhile c member)
  longest := by
    rw [shown, ← String.ofList_append, trimEnd_append, String.toList_ofList]
    intro c first
    exact of_decide_eq_false (Lexeme.head_dropWhile c first)
  blank := by
    intro c member
    rw [String.toList_ofList, List.mem_reverse] at member
    exact List.all_eq_true.1 List.all_takeWhile c member
  solid := by
    intro c last
    rw [shown, String.toList_ofList, trimEnd, List.getLast?_reverse] at last
    exact Lexeme.head_dropWhile c last

theorem isDigit_of_mem_number {c : Char} (member : c ∈ (toString line.number).toList) :
    c.isDigit = true := by
  rw [Nat.toString_eq_repr, Nat.toList_repr] at member
  exact Nat.isDigit_of_mem_toDigits (by decide) (by decide) member

section Numbered

variable (numbered : 0 < line.number)
include numbered

theorem length_number : (toString line.number).length = line.digits := by
  rw [Nat.toString_eq_repr, length_repr numbered, digits]

theorem size_number : (toString line.number).utf8ByteSize = line.digits := by
  have ascii : ∀ c ∈ (toString line.number).toList, c.toNat < 128 := by
    intro c member
    have digit := (Char.isDigit_iff_toNat.1 (isDigit_of_mem_number member)).2
    exact Nat.lt_of_le_of_lt digit (by decide)
  rw [← byteLength_toList, byteLength_of_ascii ascii, String.length_toList, length_number numbered]

theorem toList_gutter :
    line.gutter.toList = List.replicate (line.digits + 1) ' ' ++ ['|'] := by
  rw [gutter, length_number numbered, String.toList_append, String.toList_ofList]
  rfl

theorem bar_rows :
    ∀ row ∈ line.rows, (utf8 row.toList).idxOf? '|'.toUInt8 = some (line.digits + 1) := by
  simp only [rows, List.forall_mem_cons]
  refine ⟨?_, ?_, ?_, List.forall_mem_nil _⟩
  · rw [toList_gutter numbered, idxOf?_utf8 (by decide) (by simp), byteLength_replicate (by decide)]
  · have row : (toString line.number ++ " | " ++ line.shown).toList =
        ((toString line.number).toList ++ [' ']) ++ '|' :: ' ' :: line.shown.toList := by
      simp
    have free : '|' ∉ (toString line.number).toList ++ [' '] := by
      intro member
      rcases List.mem_append.1 member with digit | space
      · exact absurd (isDigit_of_mem_number digit) (by decide)
      · exact absurd (List.mem_singleton.1 space) (by decide)
    rw [row, idxOf?_utf8 (by decide) free, byteLength_append, byteLength_toList,
      size_number numbered]
    rfl
  · rw [String.toList_append, String.toList_append, toList_gutter numbered, List.append_assoc,
      List.append_assoc, List.singleton_append, idxOf?_utf8 (by decide) (by simp),
      byteLength_replicate (by decide)]

theorem toList_caretRow : (line.gutter ++ " " ++ line.caret).toList =
    (List.replicate (line.digits + 1) ' ' ++
      (['|', ' '] ++ List.replicate (line.column - line.indent) '-')) ++ ['^'] := by
  simp [caret, toList_gutter numbered]

theorem caret_place : (utf8 (line.gutter ++ " " ++ line.caret).toList).idxOf? '^'.toUInt8 =
    some (line.digits + 3 + (line.column - line.indent)) := by
  rw [toList_caretRow numbered, idxOf?_utf8 (by decide) (by simp), byteLength_append,
    byteLength_append, byteLength_replicate (by decide), byteLength_replicate (by decide),
    ← Nat.add_assoc]
  rfl

/-- From the byte that the caret points to, the row goes on as what is shown does. -/
theorem drop_row (inside : Nat) :
    (utf8 (toString line.number ++ " | " ++ line.shown).toList).drop (line.digits + 3 + inside) =
      (utf8 line.shown.toList).drop inside := by
  have start : (utf8 (toString line.number ++ " | ").toList).length = line.digits + 3 := by
    rw [length_utf8, byteLength_toList, String.utf8ByteSize_append, size_number numbered]
    rfl
  rw [String.toList_append, utf8_append, ← start, List.drop_length_add_append]

end Numbered

end Line

/-- What is shown from the column on is the source from the offset to where the line is trimmed. -/
theorem Trimmed.drop_source {source indentation shown ending : String} {offset : Nat} {line : Line}
    (trimmed : Trimmed line.text indentation shown ending)
    (found : lineAt source offset = some line)
    (start : indentation.utf8ByteSize ≤ line.column)
    (stop : line.column < indentation.utf8ByteSize + shown.utf8ByteSize) :
    (utf8 shown.toList).drop (line.column - indentation.utf8ByteSize) =
      ((utf8 source.toList).take
        (offset - line.column + indentation.utf8ByteSize + shown.utf8ByteSize)).drop offset := by
  have ahead := (trimmed.isPrefix start (Nat.le_of_lt stop)).trans (lineAt_isPrefix found)
  have size : ((utf8 shown.toList).drop (line.column - indentation.utf8ByteSize)).length =
      offset - line.column + indentation.utf8ByteSize + shown.utf8ByteSize - offset := by
    have column := column_le_of_lineAt found
    rw [List.length_drop, length_utf8, byteLength_toList]
    omega
  rw [List.prefix_iff_eq_take.1 ahead, size, List.drop_take]

/-- The report of a place past the source is its heading.  Any other shows what is left of the line
when it is trimmed, and puts the caret below the byte of the offset, or below the first byte if the
place is left out with the indentation. -/
theorem report_aligned (diagnostic : Diagnostic) (source : String) :
    (∃ words, diagnostic.headline = "Error: " ++ words) ∧
    (source.utf8ByteSize < diagnostic.position.offset →
      diagnostic.report source = String.join
        ([diagnostic.headline, "-> " ++ diagnostic.position.file].map (· ++ "\n"))) ∧
    (diagnostic.position.offset ≤ source.utf8ByteSize →
      ∃ line indentation shown ending gutter row caret dashes,
        lineAt source diagnostic.position.offset = some line ∧
        Trimmed line.text indentation shown ending ∧
        diagnostic.report source = String.join ([diagnostic.headline,
          "-> " ++ diagnostic.position.file, gutter, row, caret].map (· ++ "\n")) ∧
        (∀ each ∈ [gutter, row, caret], '\n' ∉ each.toList ∧
          (utf8 each.toList).idxOf? '|'.toUInt8 = some (line.digits + 1)) ∧
        gutter = String.ofList (List.replicate (line.digits + 1) ' ') ++ "|" ∧
        row = toString line.number ++ " | " ++ shown ∧
        caret = gutter ++ " " ++ dashes ++ "^" ∧
        (∀ c ∈ dashes.toList, c = '-') ∧
        (utf8 caret.toList).idxOf? '^'.toUInt8 =
          some (line.digits + 3 + (line.column - indentation.utf8ByteSize)) ∧
        (indentation.utf8ByteSize ≤ line.column →
          line.column < indentation.utf8ByteSize + shown.utf8ByteSize →
          (utf8 row.toList).drop
              (line.digits + 3 + (line.column - indentation.utf8ByteSize)) =
            ((utf8 source.toList).take (diagnostic.position.offset - line.column +
              indentation.utf8ByteSize + shown.utf8ByteSize)).drop
                diagnostic.position.offset)) := by
  refine ⟨?_, ?_, ?_⟩
  · unfold Diagnostic.headline
    split
    · exact ⟨_, rfl⟩
    · exact ⟨_, by rw [String.append_assoc, String.append_assoc, String.append_assoc]⟩
  · intro outside
    rw [Diagnostic.report, Diagnostic.rows, lineAt_eq_none_iff.2 outside]
  · intro inside
    obtain ⟨line, found⟩ := exists_lineAt inside
    have numbered : 0 < line.number := by
      rw [(lineAt_between found).number]
      omega
    refine ⟨line, _, line.shown, _, line.gutter, _, line.gutter ++ " " ++ line.caret,
      String.ofList (List.replicate (line.column - line.indent) '-'), found, line.trimmed, ?_, ?_,
      ?_, rfl, ?_, ?_, ?_, ?_⟩
    · rw [Diagnostic.report, Diagnostic.rows, found]
      rfl
    · intro each member
      refine ⟨?_, Line.bar_rows numbered each member⟩
      rw [eq_find_of_lineAt found] at member
      exact Line.isRow_rows each member
    · rw [Line.gutter, Line.length_number numbered]
    · rw [Line.caret, ← String.append_assoc]
    · intro c member
      rw [String.toList_ofList] at member
      exact List.eq_of_mem_replicate member
    · rw [Line.size_indent]
      exact Line.caret_place numbered
    · intro start stop
      rw [Line.drop_row numbered]
      exact line.trimmed.drop_source found start stop

/-- A fault behind an accented letter of an indented line, and one past the source. -/
theorem report_aligned_accented :
    7 ≤ "a;\n\té 5; \n".utf8ByteSize ∧
    (∃ row caret,
      Diagnostic.report ⟨.expectedToken .semicolon .integer, ⟨7, "main.mk"⟩⟩ "a;\n\té 5; \n" =
        String.join ([
          "Error: expected token kind Semicolon but found Int (did you miss a semicolon?)",
          "-> main.mk", "  |", row, caret].map (· ++ "\n")) ∧
      row = "2 | é 5;" ∧ (utf8 caret.toList).idxOf? '^'.toUInt8 = some 7 ∧
      (utf8 row.toList).drop 7 = ((utf8 "a;\n\té 5; \n".toList).take 9).drop 7) ∧
    "".utf8ByteSize < 1 ∧
    Diagnostic.report ⟨.expectedToken .semicolon .integer, ⟨1, "main.mk"⟩⟩ "" =
      String.join ([
        "Error: expected token kind Semicolon but found Int (did you miss a semicolon?)",
        "-> main.mk"].map (· ++ "\n")) := by
  have inside : 7 ≤ "a;\n\té 5; \n".utf8ByteSize := by decide +kernel
  have outside : "".utf8ByteSize < 1 := by decide +kernel
  refine ⟨inside, ?_, outside, ?_⟩
  · obtain ⟨line, _, _, _, gutter, row, caret, _, found, trimmed, report, _, spaces, shown, _, _,
      place, aligned⟩ :=
      (report_aligned ⟨.expectedToken .semicolon .integer, ⟨7, "main.mk"⟩⟩
        "a;\n\té 5; \n").2.2 inside
    have second : lineAt "a;\n\té 5; \n" 7 = some ⟨2, "\té 5; \n", 4⟩ := by decide +kernel
    have blank : isBlank ' ' = true ∧ isBlank '\n' = true := by decide
    have solid : isBlank ';' = false := by decide
    have cut : Trimmed "\té 5; \n" "\t" "é 5;" " \n" :=
      ⟨by decide +kernel, by simp, by simp, by simpa using blank, by simpa using solid⟩
    have digits : (⟨2, "\té 5; \n", 4⟩ : Line).digits = 1 := by simp [Line.digits]
    obtain rfl := Option.some.inj (found.symm.trans second)
    obtain ⟨rfl, rfl, rfl⟩ := trimmed.unique cut
    rw [digits] at spaces place aligned
    refine ⟨row, caret, ?_, shown, place, aligned (by decide +kernel) (by decide +kernel)⟩
    rw [report, spaces]
    rfl
  · rw [(report_aligned ⟨.expectedToken .semicolon .integer, ⟨1, "main.mk"⟩⟩ "").2.1 outside]
    decide +kernel

end Monkey
