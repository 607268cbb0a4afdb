import Monkey.Proofs.Token.Lexical
import Monkey.Source.Line

namespace Monkey

/-! The line in which an offset is looked up. -/

theorem exists_lineAt {source : String} {offset : Nat} (inside : offset ≤ source.utf8ByteSize) :
    ∃ line, lineAt source offset = some line :=
  ⟨_, if_pos inside⟩

theorem eq_find_of_lineAt {source : String} {offset : Nat} {line : Line}
    (found : lineAt source offset = some line) : line = Line.find 1 offset source.toList := by
  unfold lineAt at found
  split at found
  · exact (Option.some.inj found).symm
  · cases found

theorem lineFeed_not_mem_takeWhile (characters : List Char) :
    '\n' ∉ characters.takeWhile (· ≠ '\n') :=
  fun member => absurd (List.all_eq_true.1 List.all_takeWhile _ member) (by decide)

/-- A text without a line feed is one line. -/
theorem takeWhile_of_dropWhile {characters : List Char}
    (ending : characters.dropWhile (· ≠ '\n') = []) :
    characters.takeWhile (· ≠ '\n') = characters := by
  have whole := List.takeWhile_append_dropWhile (p := (· ≠ '\n')) (l := characters)
  rwa [ending, List.append_nil] at whole

/-- What is not in the first line comes after a line feed. -/
theorem split_of_dropWhile {characters rest : List Char} {feed : Char}
    (ending : characters.dropWhile (· ≠ '\n') = feed :: rest) :
    feed = '\n' ∧ characters = characters.takeWhile (· ≠ '\n') ++ '\n' :: rest := by
  have stops := Lexeme.head_dropWhile feed (Option.mem_def.2 (congrArg List.head? ending))
  obtain rfl : feed = '\n' := Decidable.not_not.1 (of_decide_eq_false stops)
  exact ⟨rfl, by rw [← ending, List.takeWhile_append_dropWhile]⟩

/-- A line has no line feed but the one that ends it. -/
theorem Line.find_text (number offset : Nat) (characters : List Char) :
    ∃ body, '\n' ∉ body ∧ ((find number offset characters).text = String.ofList body ∨
      (find number offset characters).text = String.ofList (body ++ ['\n'])) := by
  fun_induction find number offset characters with
  | case1 number offset characters text ending =>
      exact ⟨text, lineFeed_not_mem_takeWhile characters, .inl rfl⟩
  | case2 number offset characters text feed rest ending inside =>
      obtain ⟨rfl, _⟩ := split_of_dropWhile ending
      exact ⟨text, lineFeed_not_mem_takeWhile characters, .inr rfl⟩
  | case3 number offset characters text feed rest ending outside ih => exact ih

end Monkey
