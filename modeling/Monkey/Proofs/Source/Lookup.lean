import Mathlib.Algebra.GroupWithZero.Nat
import Mathlib.Data.List.DropRight
import Monkey.Proofs.Source.Encoding
import Monkey.Proofs.Source.Line

namespace Monkey

/-! Which line an offset is looked up in.

Line feeds are the same in bytes as in characters, so that an offset inside a character is in the
line of that character.  All that is known of a line can be read off the bytes on either side of
the offset.
-/

def lineFeed : UInt8 := '\n'.toUInt8

theorem lineFeed_mem_utf8 {characters : List Char} :
    lineFeed ∈ utf8 characters ↔ '\n' ∈ characters :=
  toUInt8_mem_utf8 (by decide)

/-- The bytes after the last line feed. -/
def lineHead (before : List UInt8) : List UInt8 :=
  before.rtakeWhile (· ≠ lineFeed)

/-- The bytes through the first line feed, or all of them if there is none. -/
def lineTail (after : List UInt8) : List UInt8 :=
  after.takeWhile (· ≠ lineFeed) ++ (after.dropWhile (· ≠ lineFeed)).take 1

section Pieces

variable {before after : List UInt8}

theorem lineHead_append (before after : List UInt8) :
    lineHead (before ++ lineFeed :: after) = lineHead after := by
  have stops : ∀ bytes : List UInt8, (bytes ++ lineFeed :: before.reverse).takeWhile
      (· ≠ lineFeed) = bytes.takeWhile (· ≠ lineFeed) := by
    intro bytes
    induction bytes with
    | nil => rfl
    | cons byte bytes ih => simp only [List.cons_append, List.takeWhile_cons, ih]
  simp only [lineHead, List.rtakeWhile, List.reverse_append, List.reverse_cons,
    List.append_assoc, List.singleton_append, stops]

theorem keeps_of_free (free : lineFeed ∉ before) :
    ∀ byte ∈ before, decide (byte ≠ lineFeed) = true := by
  intro byte member
  refine decide_eq_true ?_
  rintro rfl
  exact free member

theorem lineHead_of_free (free : lineFeed ∉ before) : lineHead before = before :=
  List.rtakeWhile_eq_self_iff.2 (keeps_of_free free)

theorem lineTail_of_free (free : lineFeed ∉ after) : lineTail after = after := by
  have kept := keeps_of_free free
  rw [lineTail, List.takeWhile_eq_self_iff.2 kept, List.dropWhile_eq_nil_iff.2 kept,
    List.take_nil, List.append_nil]

theorem lineTail_append (free : lineFeed ∉ before) :
    lineTail (before ++ lineFeed :: after) = before ++ [lineFeed] := by
  have kept := keeps_of_free free
  rw [lineTail, List.takeWhile_append_of_pos kept, List.dropWhile_append_of_pos kept]
  simp

theorem lineTail_isPrefix (after : List UInt8) : lineTail after <+: after := by
  refine ⟨(after.dropWhile (· ≠ lineFeed)).drop 1, ?_⟩
  rw [lineTail, List.append_assoc, List.take_append_drop, List.takeWhile_append_dropWhile]

end Pieces

theorem lineFeed_not_mem_utf8_takeWhile (characters : List Char) :
    lineFeed ∉ utf8 (characters.takeWhile (· ≠ '\n')) :=
  mt lineFeed_mem_utf8.1 (lineFeed_not_mem_takeWhile characters)

theorem utf8_of_dropWhile {characters rest : List Char} {feed : Char}
    (ending : characters.dropWhile (· ≠ '\n') = feed :: rest) :
    utf8 characters = utf8 (characters.takeWhile (· ≠ '\n')) ++ lineFeed :: utf8 rest := by
  have feed : utf8 ('\n' :: rest) = lineFeed :: utf8 rest := rfl
  rw [← feed, ← utf8_append]
  exact congrArg utf8 (split_of_dropWhile ending).2

/-- The lines of a text, each with the line feed that ends it. -/
def lines : List Char → List (List Char)
  | [] => []
  | c :: rest =>
      if c = '\n' then [c] :: lines rest
      else
        match lines rest with
        | [] => [[c]]
        | line :: others => (c :: line) :: others

theorem lines_of_free {text : List Char} (free : '\n' ∉ text) (nonempty : text ≠ []) :
    lines text = [text] := by
  induction text with
  | nil => exact absurd rfl nonempty
  | cons c rest ih =>
      obtain ⟨other, free⟩ := not_or.1 (mt List.mem_cons.2 free)
      cases rest with
      | nil => simp [lines, Ne.symm other]
      | cons d rest => rw [lines, if_neg (Ne.symm other), ih free (List.cons_ne_nil d rest)]

theorem lines_append {text : List Char} (free : '\n' ∉ text) (rest : List Char) :
    lines (text ++ '\n' :: rest) = (text ++ ['\n']) :: lines rest := by
  induction text with
  | nil => simp [lines]
  | cons c text ih =>
      obtain ⟨other, free⟩ := not_or.1 (mt List.mem_cons.2 free)
      simp [lines, Ne.symm other, ih free]

namespace Line

/-- The line is that of the place between these bytes, if it is counted from this number on. -/
structure Between (line : Line) (number : Nat) (before after : List UInt8) : Prop where
  number : line.number = number + before.count lineFeed
  text : utf8 line.text.toList = lineHead before ++ lineTail after
  column : line.column = (lineHead before).length

section Between

variable {line : Line} {number : Nat} {earlier before after : List UInt8}

theorem Between.first (free : lineFeed ∉ before)
    (text : utf8 line.text.toList = before ++ lineTail after)
    (column : line.column = before.length) : line.Between line.number before after where
  number := by rw [List.count_eq_zero_of_not_mem free, Nat.add_zero]
  text := by rw [text, lineHead_of_free free]
  column := by rw [column, lineHead_of_free free]

theorem Between.later (between : line.Between (number + 1) before after)
    (free : lineFeed ∉ earlier) :
    line.Between number (earlier ++ lineFeed :: before) after where
  number := by
    rw [between.number, List.count_append, List.count_eq_zero_of_not_mem free,
      List.count_cons_self]
    omega
  text := by rw [between.text, lineHead_append]
  column := by rw [between.column, lineHead_append]

end Between

theorem find_between {number offset : Nat} {characters : List Char}
    (inside : offset ≤ byteLength characters) :
    (find number offset characters).Between number ((utf8 characters).take offset)
      ((utf8 characters).drop offset) := by
  fun_induction find number offset characters with
  | case1 number offset characters text ending =>
      have whole : text = characters := takeWhile_of_dropWhile ending
      have free : lineFeed ∉ utf8 characters := whole ▸ lineFeed_not_mem_utf8_takeWhile characters
      apply Between.first (mt List.mem_of_mem_take free)
      · rw [lineTail_of_free (mt List.mem_of_mem_drop free), List.take_append_drop, whole,
          String.toList_ofList]
      · rw [List.length_take_of_le (by rwa [length_utf8])]
  | case2 number offset characters text feed rest ending fits =>
      obtain ⟨rfl, split⟩ := split_of_dropWhile ending
      have free : lineFeed ∉ utf8 text := lineFeed_not_mem_utf8_takeWhile characters
      have fits : offset ≤ (utf8 text).length := by rwa [length_utf8]
      rw [utf8_of_dropWhile ending, List.take_append_of_le_length fits,
        List.drop_append_of_le_length fits]
      apply Between.first (mt List.mem_of_mem_take free)
      · rw [lineTail_append (mt List.mem_of_mem_drop free), ← List.append_assoc,
          List.take_append_drop, String.toList_ofList, utf8_append]
        rfl
      · rw [List.length_take_of_le fits]
  | case3 number offset characters text feed rest ending outside ih =>
      have whole : utf8 characters = utf8 text ++ lineFeed :: utf8 rest := utf8_of_dropWhile ending
      have size := congrArg List.length whole
      rw [List.length_append, List.length_cons] at size
      simp only [length_utf8] at size
      obtain ⟨more, rfl⟩ : ∃ more, offset = byteLength text + (more + 1) :=
        ⟨offset - byteLength text - 1, by omega⟩
      have left : byteLength text + (more + 1) - byteLength text - 1 = more := by omega
      rw [left] at ih ⊢
      rw [whole, ← length_utf8 text, List.take_length_add_append, List.drop_length_add_append,
        List.take_succ_cons, List.drop_succ_cons]
      exact (ih (by omega)).later (lineFeed_not_mem_utf8_takeWhile characters)

/-- The bytes before an offset are those of the lines before its own, and the column. -/
theorem find_lines (number offset : Nat) (characters : List Char) :
    ∃ index, (find number offset characters).number = number + index ∧
      (find number offset characters).text.toList = ((lines characters)[index]?).getD [] ∧
      (((lines characters).take index).map byteLength).sum +
        (find number offset characters).column = offset := by
  fun_induction find number offset characters with
  | case1 number offset characters text ending =>
      have free : '\n' ∉ text := lineFeed_not_mem_takeWhile characters
      have whole : text = characters := takeWhile_of_dropWhile ending
      refine ⟨0, rfl, ?_, by simp⟩
      by_cases nonempty : text = []
      · rw [← whole, nonempty]
        rfl
      · rw [← whole, lines_of_free free nonempty, String.toList_ofList]
        rfl
  | case2 number offset characters text feed rest ending fits =>
      have free : '\n' ∉ text := lineFeed_not_mem_takeWhile characters
      obtain ⟨rfl, split⟩ := split_of_dropWhile ending
      refine ⟨0, rfl, ?_, by simp⟩
      rw [split, lines_append free, String.toList_ofList]
      rfl
  | case3 number offset characters text feed rest ending outside ih =>
      have free : '\n' ∉ text := lineFeed_not_mem_takeWhile characters
      obtain ⟨rfl, split⟩ := split_of_dropWhile ending
      obtain ⟨index, counted, line, sum⟩ := ih
      rw [split, lines_append free]
      refine ⟨index + 1, by omega, line, ?_⟩
      have feed : '\n'.utf8Size = 1 := rfl
      rw [List.take_succ_cons, List.map_cons, List.sum_cons, byteLength_append, byteLength_cons,
        byteLength_nil, feed]
      omega

end Line

theorem lineAt_eq_none_iff {source : String} {offset : Nat} :
    lineAt source offset = none ↔ source.utf8ByteSize < offset := by
  unfold lineAt
  split <;> simp <;> omega

theorem lineAt_between {source : String} {offset : Nat} {line : Line}
    (found : lineAt source offset = some line) :
    line.Between 1 ((utf8 source.toList).take offset) ((utf8 source.toList).drop offset) := by
  have inside : offset ≤ byteLength source.toList := by
    rw [byteLength_toList, ← Nat.not_lt, ← lineAt_eq_none_iff, found]
    simp
  rw [eq_find_of_lineAt found]
  exact Line.find_between inside

theorem lineAt_lines {source : String} {offset : Nat} {line : Line}
    (found : lineAt source offset = some line) :
    line.text.toList = ((lines source.toList)[line.number - 1]?).getD [] ∧
      (((lines source.toList).take (line.number - 1)).map byteLength).sum + line.column =
        offset := by
  obtain ⟨index, counted, text, sum⟩ := Line.find_lines 1 offset source.toList
  rw [← eq_find_of_lineAt found] at counted text sum
  rw [counted, Nat.add_sub_cancel_left]
  exact ⟨text, sum⟩

theorem column_le_of_lineAt {source : String} {offset : Nat} {line : Line}
    (found : lineAt source offset = some line) : line.column ≤ offset := by
  have sum := (lineAt_lines found).2
  omega

/-- What follows the offset in its line follows it in the source. -/
theorem lineAt_isPrefix {source : String} {offset : Nat} {line : Line}
    (found : lineAt source offset = some line) :
    (utf8 line.text.toList).drop line.column <+: (utf8 source.toList).drop offset := by
  obtain ⟨_, text, column⟩ := lineAt_between found
  rw [text, column, List.drop_left]
  exact lineTail_isPrefix _

/-- What a line holds before a place. -/
def headOfLine (before : List Char) : List Char :=
  before.rtakeWhile (· ≠ '\n')

/-- What a line holds from a place on, through the line feed that ends it. -/
def restOfLine (after : List Char) : List Char :=
  after.takeWhile (· ≠ '\n') ++ (after.dropWhile (· ≠ '\n')).take 1

theorem restOfLine_append {text : List Char} (free : '\n' ∉ text) (after : List Char) :
    restOfLine (text ++ after) = text ++ restOfLine after := by
  have kept : ∀ c ∈ text, decide (c ≠ '\n') = true := by
    intro c member
    refine decide_eq_true ?_
    rintro rfl
    exact free member
  rw [restOfLine, List.takeWhile_append_of_pos kept, List.dropWhile_append_of_pos kept,
    List.append_assoc, restOfLine]

theorem lineHead_utf8 (before : List Char) : lineHead (utf8 before) = utf8 (headOfLine before) := by
  have free : lineFeed ∉ utf8 (headOfLine before) := by
    rw [lineFeed_mem_utf8]
    exact fun member => absurd (List.mem_rtakeWhile_imp member) (by decide)
  have whole : before.rdropWhile (· ≠ '\n') ++ headOfLine before = before :=
    List.rdropWhile_append_rtakeWhile
  -- The part before the line is empty or ends with a line feed.
  cases last : (before.rdropWhile (· ≠ '\n')).getLast? with
  | none =>
      rw [List.getLast?_eq_none_iff.1 last, List.nil_append] at whole
      rw [whole] at free ⊢
      exact lineHead_of_free free
  | some feed =>
      obtain ⟨others, earlier⟩ := List.getLast?_eq_some_iff.1 last
      rw [List.rdropWhile, List.getLast?_reverse] at last
      obtain rfl : feed = '\n' :=
        Decidable.not_not.1 (of_decide_eq_false (Lexeme.head_dropWhile feed last))
      have bytes := congrArg utf8 whole
      rw [earlier, List.append_assoc, utf8_append] at bytes
      rw [← bytes]
      exact (lineHead_append _ _).trans (lineHead_of_free free)

theorem lineTail_utf8 (after : List Char) : lineTail (utf8 after) = utf8 (restOfLine after) := by
  have free : lineFeed ∉ utf8 (after.takeWhile (· ≠ '\n')) :=
    lineFeed_not_mem_utf8_takeWhile after
  unfold restOfLine
  cases ending : after.dropWhile (· ≠ '\n') with
  | nil =>
      have whole := takeWhile_of_dropWhile ending
      rw [whole] at free ⊢
      rw [lineTail_of_free free, List.take_nil, List.append_nil]
  | cons feed rest =>
      obtain ⟨rfl, _⟩ := split_of_dropWhile ending
      rw [utf8_of_dropWhile ending, lineTail_append free, utf8_append]
      rfl

/-- Between two characters the line is what stands between the line feeds around the place. -/
theorem lineAt_of_split {source : String} {before after : List Char}
    (whole : source.toList = before ++ after) :
    ∃ line, lineAt source (byteLength before) = some line ∧
      line.text.toList = headOfLine before ++ restOfLine after ∧
      line.column = byteLength (headOfLine before) := by
  have inside : byteLength before ≤ source.utf8ByteSize := by
    rw [← byteLength_toList, whole, byteLength_append]
    exact Nat.le_add_right _ _
  obtain ⟨line, found⟩ := exists_lineAt inside
  have between := lineAt_between found
  rw [whole, utf8_append, ← length_utf8, List.take_left, List.drop_left] at between
  refine ⟨line, found, utf8_injective ?_, ?_⟩
  · rw [between.text, lineHead_utf8, lineTail_utf8, utf8_append]
  · rw [between.column, lineHead_utf8, length_utf8]

/-- Every offset of a source, and no other, has a line.  It is the one line that the bytes before
and after the offset allow, and its number and column tell the offset. -/
theorem lineAt_exact (source : String) (offset : Nat) :
    (lineAt source offset = none ↔ source.utf8ByteSize < offset) ∧
    ∀ line, lineAt source offset = some line →
      line.number = 1 + ((utf8 source.toList).take offset).count lineFeed ∧
      utf8 line.text.toList = lineHead ((utf8 source.toList).take offset) ++
        lineTail ((utf8 source.toList).drop offset) ∧
      line.column = (lineHead ((utf8 source.toList).take offset)).length ∧
      line.column ≤ line.text.utf8ByteSize ∧
      line.text.toList = ((lines source.toList)[line.number - 1]?).getD [] ∧
      (((lines source.toList).take (line.number - 1)).map byteLength).sum + line.column =
        offset ∧
      ∀ other place, lineAt source other = some place → place.number = line.number →
        place.column = line.column → other = offset := by
  refine ⟨lineAt_eq_none_iff, fun line found => ?_⟩
  obtain ⟨number, text, column⟩ := lineAt_between found
  obtain ⟨same, sum⟩ := lineAt_lines found
  refine ⟨number, text, column, ?_, same, sum, ?_⟩
  · have size := congrArg List.length text
    rw [length_utf8, byteLength_toList, List.length_append, ← column] at size
    omega
  · intro other place seen numbers columns
    have sums := (lineAt_lines seen).2
    rw [numbers, columns, sum] at sums
    exact sums.symm

/-- An offset inside a character of the second line. -/
theorem lineAt_exact_inside :
    lineAt "a\nbé\n" 4 = some ⟨2, "bé\n", 2⟩ ∧
      2 = 1 + ((utf8 "a\nbé\n".toList).take 4).count lineFeed ∧
      (((lines "a\nbé\n".toList).take 1).map byteLength).sum + 2 = 4 := by
  have found : lineAt "a\nbé\n" 4 = some ⟨2, "bé\n", 2⟩ := by decide +kernel
  obtain ⟨number, _, _, _, _, sum, _⟩ := (lineAt_exact "a\nbé\n" 4).2 _ found
  exact ⟨found, number, sum⟩

end Monkey
