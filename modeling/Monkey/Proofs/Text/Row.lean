import Mathlib.Data.List.TakeWhile
import Mathlib.Tactic.SplitIfs
import Monkey.Proofs.Token.Lexical
import Monkey.Text.Blank
import Monkey.Text.Quoted

namespace Monkey

/-! Texts that fit in one row.

A line feed in a text would break the row that the text is put in.  Lexemes have none, since gaps
end them, and quoting takes them out of any text.
-/

namespace Text

/-- There is no line feed in the text. -/
def IsRow (text : String) : Prop :=
  '\n' ∉ text.toList

instance (text : String) : Decidable (IsRow text) :=
  inferInstanceAs (Decidable (¬ '\n' ∈ text.toList))

@[simp] theorem isRow_append {left right : String} :
    IsRow (left ++ right) ↔ IsRow left ∧ IsRow right := by
  simp [IsRow]

@[simp] theorem isRow_ofList {characters : List Char} :
    IsRow (String.ofList characters) ↔ '\n' ∉ characters := by
  simp [IsRow]

@[simp] theorem isRow_repr (number : Nat) : IsRow number.repr := by
  intro member
  rw [Nat.toList_repr] at member
  exact absurd (Nat.isDigit_of_mem_toDigits (by decide) (by decide) member) (by decide)

theorem isRow_replicate {count : Nat} {c : Char} (other : c ≠ '\n') :
    IsRow (String.ofList (List.replicate count c)) := by
  rw [isRow_ofList]
  exact fun member => other (List.eq_of_mem_replicate member).symm

theorem lineFeed_not_mem_toDigits (number : Nat) : '\n' ∉ Nat.toDigits 16 number := by
  have digit : ∀ last < 16, '\n' ≠ Nat.digitChar last := by decide
  induction number using Nat.strongRecOn with
  | ind number ih =>
      by_cases small : number < 16
      · rw [Nat.toDigits_of_lt_base small, List.mem_singleton]
        exact digit number small
      · have least : 16 ≤ number := Nat.le_of_not_lt small
        rw [Nat.toDigits_of_base_le (by decide) least, List.mem_append, List.mem_singleton]
        rintro (earlier | last)
        · exact ih (number / 16) (by omega) earlier
        · exact digit _ (Nat.mod_lt number (by decide)) last

theorem lineFeed_not_mem_escape (c : Char) : '\n' ∉ escape c := by
  unfold escape
  split_ifs with quote slash null tab feed carriage shown
  iterate 6 decide
  · exact fun same => feed (List.mem_singleton.1 same).symm
  · simp [codePoint, lineFeed_not_mem_toDigits]

@[simp] theorem isRow_quoted (text : String) : IsRow (quoted text) := by
  have inside : '\n' ∉ text.toList.flatMap escape := by
    intro member
    obtain ⟨c, _, feed⟩ := List.mem_flatMap.1 member
    exact lineFeed_not_mem_escape c feed
  have quote : IsRow "\"" := by decide
  simp [quoted, quote, inside]

theorem lineFeed_not_mem_trimEnd {characters : List Char} (free : '\n' ∉ characters) :
    '\n' ∉ trimEnd characters := by
  intro member
  rw [← trimEnd_append characters] at free
  exact free (List.mem_append_left _ member)

theorem trimEnd_append_of_blank {ending : List Char} (blank : ∀ c ∈ ending, isBlank c = true)
    (characters : List Char) : trimEnd (characters ++ ending) = trimEnd characters := by
  have backwards : ∀ c ∈ ending.reverse, isBlank c = true :=
    fun c member => blank c (List.mem_reverse.1 member)
  rw [trimEnd, trimEnd, List.reverse_append, List.dropWhile_append_of_pos backwards]

theorem trimEnd_eq_nil_iff {characters : List Char} :
    trimEnd characters = [] ↔ ∀ c ∈ characters, isBlank c = true := by
  simp [trimEnd, List.dropWhile_eq_nil_iff]

/-- Nothing is cut off before a character that is not white space. -/
theorem trimEnd_append_of_solid {rest : List Char} (solid : ¬ ∀ c ∈ rest, isBlank c = true)
    (characters : List Char) : trimEnd (characters ++ rest) = characters ++ trimEnd rest := by
  have remains : (rest.reverse.dropWhile isBlank).isEmpty ≠ true := by
    simpa [List.dropWhile_eq_nil_iff] using solid
  rw [trimEnd, trimEnd, List.reverse_append, List.dropWhile_append, if_neg remains,
    List.reverse_append, List.reverse_reverse]

/-- The first character of what ends a text is kept exactly if not all of that is white space. -/
theorem isPrefix_trimEnd_iff {before rest : List Char} :
    (∃ first ∈ rest.head?, before ++ [first] <+: trimEnd (before ++ rest)) ↔
      ∃ c ∈ rest, isBlank c = false := by
  by_cases blank : ∀ c ∈ rest, isBlank c = true
  · apply iff_of_false
    · rintro ⟨first, _, kept⟩
      rw [trimEnd_append_of_blank blank] at kept
      have whole := congrArg List.length (trimEnd_append before)
      have least := kept.length_le
      simp only [List.length_append, List.length_singleton] at whole least
      omega
    · rintro ⟨c, member, solid⟩
      rw [blank c member] at solid
      cases solid
  · apply iff_of_true
    · have whole := trimEnd_append rest
      cases shown : trimEnd rest with
      | nil => exact absurd (trimEnd_eq_nil_iff.1 shown) blank
      | cons first others =>
          rw [shown] at whole
          refine ⟨first, by rw [← whole]; rfl, ?_⟩
          rw [trimEnd_append_of_solid blank, shown]
          exact (List.prefix_append_right_inj before).2 ⟨others, rfl⟩
    · simpa using blank

end Text

@[simp] theorem Kind.isRow_name (kind : Kind) : Text.IsRow kind.name := by
  cases kind <;> decide

theorem IsLexeme.isRow {kind : Kind} {text : String} {next : Option Char}
    (isLexeme : IsLexeme kind text next) : Text.IsRow text :=
  fun member => absurd (isLexeme.solid _ member) (by decide)

/-- No token of a source has a line feed in its text. -/
theorem tokenize_isRow {source : String} {file : Option String} :
    ∀ token ∈ tokenize source file, Text.IsRow token.text := by
  have covers := Covers.scan (file.getD Lexer.defaultFile) 0 source.toList
  intro token member
  rcases List.mem_append.1 member with inside | last
  · obtain ⟨rest, isLexeme⟩ := covers.isLexeme token inside
    exact isLexeme.isRow
  · rw [List.mem_singleton.1 last]
    exact List.not_mem_nil

end Monkey
