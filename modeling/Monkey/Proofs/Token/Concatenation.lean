import Monkey.Proofs.Token.Scanning
import Monkey.Proofs.Tree.Relocation

namespace Monkey

/-! Tokens of texts that are put together. -/

theorem Token.relocate_endOfInput (file : String) (offset count : Nat) :
    (endOfInput file offset).relocate (·.shift count) = endOfInput file (offset + count) :=
  congrArg (Token.mk .endOfInput "") (Span.relocate_between file offset offset count)

/-- Tokens stand later by as much as their text does. -/
theorem scan_shift (file : String) (count offset : Nat) (characters : List Char) :
    scan file (offset + count) characters =
      (scan file offset characters).map (·.relocate (·.shift count)) := by
  induction length : characters.length using Nat.strongRecOn generalizing offset characters with
  | ind left ih =>
      cases characters with
      | nil => simp [scan_nil]
      | cons first rest =>
          by_cases gap : isGap first = true
          · rw [scan_gap gap, scan_gap gap, Nat.add_right_comm]
            exact ih rest.length (by simp [← length]) _ rest rfl
          · have solid : isGap first = false := by simpa using gap
            have shorter := Lexeme.read_rest_length first rest
            rw [scan_solid solid, scan_solid solid, List.map_cons, Token.relocate,
              Span.relocate_between, Nat.add_right_comm]
            congr 1
            exact ih _ (length ▸ shorter) _ _ rfl

namespace Lexeme

/-- A run of characters that ends before the text does is not changed by more text. -/
theorem run_append {sort : Char → Bool} {rest : List Char} (more : List Char)
    (ends : rest.dropWhile sort ≠ []) :
    (rest ++ more).takeWhile sort = rest.takeWhile sort ∧
      (rest ++ more).dropWhile sort = rest.dropWhile sort ++ more := by
  induction rest with
  | nil => exact absurd rfl ends
  | cons c rest ih =>
      by_cases same : sort c = true
      · rw [List.dropWhile_cons_of_pos same] at ends
        obtain ⟨taken, dropped⟩ := ih ends
        simp [same, taken, dropped]
      · simp [same]

/-- A lexeme that something follows is not changed by what comes after that. -/
theorem read_append_of_rest {first : Char} {rest : List Char} (more : List Char)
    (follows : (read first rest).rest ≠ []) :
    read first (rest ++ more) =
      { read first rest with rest := (read first rest).rest ++ more } := by
  unfold read at follows ⊢
  split
  · rename_i letter
    rw [if_pos letter] at follows
    obtain ⟨taken, dropped⟩ := run_append more follows
    rw [taken, dropped]
  · rename_i plain
    rw [if_neg plain] at follows
    split
    · rename_i digit
      rw [if_pos digit] at follows
      obtain ⟨taken, dropped⟩ := run_append more follows
      rw [taken, dropped]
    · rename_i symbol
      rw [if_neg symbol] at follows
      cases rest with
      | nil => split at follows <;> simp_all
      | cons c rest =>
          rw [List.cons_append]
          split <;> rename_i same
          · cases same
            rfl
          · cases same
            rfl
          · split <;> simp_all

theorem first_of_semicolon {first : Char} {rest : List Char}
    (semicolon : (read first rest).kind = .semicolon) : first = ';' := by
  unfold read at semicolon
  split at semicolon
  · exact absurd semicolon (Kind.ofWord_ne _ (by decide) (by decide))
  · split at semicolon
    · cases semicolon
    · split at semicolon
      · cases semicolon
      · cases semicolon
      · unfold Kind.ofSymbol at semicolon
        split at semicolon <;> first | rfl | cases semicolon

theorem read_append_of_semicolon {first : Char} {rest : List Char} (more : List Char)
    (semicolon : (read first rest).kind = .semicolon) :
    read first (rest ++ more) =
      { read first rest with rest := (read first rest).rest ++ more } := by
  obtain rfl := first_of_semicolon semicolon
  rfl

end Lexeme

/-- Tokens of which the last is a semicolon. -/
def Terminated (tokens : List Token) : Prop :=
  ∃ before last, tokens = before ++ [last] ∧ last.kind = .semicolon

namespace Terminated

variable {tokens : List Token} {first : Token}

theorem length_pos (terminated : Terminated tokens) : 0 < tokens.length := by
  obtain ⟨before, last, rfl, _⟩ := terminated
  simp

theorem drop {count : Nat} (terminated : Terminated tokens) (inside : count < tokens.length) :
    Terminated (tokens.drop count) := by
  obtain ⟨before, last, rfl, semicolon⟩ := terminated
  rw [List.length_append, List.length_singleton] at inside
  exact ⟨before.drop count, last, List.drop_append_of_le_length (Nat.le_of_lt_succ inside),
    semicolon⟩

/-- Either a semicolon stands alone or what comes after the first token ends with one. -/
theorem tail (terminated : Terminated (first :: tokens)) :
    tokens = [] ∧ first.kind = .semicolon ∨ Terminated tokens := by
  obtain ⟨before, last, same, semicolon⟩ := terminated
  cases before with
  | nil =>
      cases same
      exact .inl ⟨rfl, semicolon⟩
  | cons _ before =>
      cases same
      exact .inr ⟨before, last, rfl, semicolon⟩

end Terminated

theorem scan_append_of_nil {file : String} {offset : Nat} {characters : List Char}
    (more : List Char) (empty : scan file offset characters = []) :
    scan file offset (characters ++ more) = scan file (offset + byteLength characters) more := by
  induction characters generalizing offset with
  | nil => simp
  | cons first rest ih =>
      by_cases gap : isGap first = true
      · rw [scan_gap gap] at empty
        rw [List.cons_append, scan_gap gap, ih empty, byteLength_cons, Nat.add_assoc]
      · have solid : isGap first = false := by simpa using gap
        rw [scan_solid solid] at empty
        cases empty

/-- After a semicolon, text is read as if it stood alone. -/
theorem scan_append {file : String} {offset : Nat} {characters : List Char} (more : List Char)
    (terminated : Terminated (scan file offset characters)) :
    scan file offset (characters ++ more) =
      scan file offset characters ++ scan file (offset + byteLength characters) more := by
  induction length : characters.length using Nat.strongRecOn generalizing offset characters with
  | ind left ih =>
      cases characters with
      | nil =>
          rw [scan_nil] at terminated
          exact absurd terminated.length_pos (Nat.lt_irrefl 0)
      | cons first rest =>
          by_cases gap : isGap first = true
          · rw [scan_gap gap] at terminated ⊢
            rw [List.cons_append, scan_gap gap, ih rest.length (by simp [← length]) terminated rfl,
              byteLength_cons, Nat.add_assoc]
          · have solid : isGap first = false := by simpa using gap
            have shorter := Lexeme.read_rest_length first rest
            have whole := congrArg byteLength (Lexeme.read_append first rest)
            rw [byteLength_append] at whole
            rw [scan_solid solid] at terminated
            -- The last lexeme is the semicolon itself; before it, something follows each.
            rcases terminated.tail with ⟨empty, semicolon⟩ | later
            · rw [List.cons_append, scan_solid solid, scan_solid solid,
                Lexeme.read_append_of_semicolon more semicolon, scan_append_of_nil more empty,
                empty, ← whole, Nat.add_assoc]
              rfl
            · have follows : (Lexeme.read first rest).rest ≠ [] := by
                intro nothing
                rw [nothing, scan_nil] at later
                exact absurd later.length_pos (Nat.lt_irrefl 0)
              rw [List.cons_append, scan_solid solid, scan_solid solid,
                Lexeme.read_append_of_rest more follows, ih _ (length ▸ shorter) later rfl,
                ← whole, Nat.add_assoc]
              rfl

end Monkey
