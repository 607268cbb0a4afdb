import Monkey.Proofs.Parser.Standard

namespace Monkey

/-! Where a parse goes on after a statement that failed. -/

namespace Parser

variable {parser : Parser} {count : Nat} {found : List Diagnostic}

/-- How many tokens come before the next one at which a statement can end. -/
def untilBoundary (parser : Parser) : Nat :=
  parser.pending.findIdx fun token => parser.table.isBoundary token.kind

theorem untilBoundary_le : parser.untilBoundary ≤ parser.pending.length :=
  List.findIdx_le_length

theorem isBoundary_of_lt_untilBoundary {index : Nat} (before : index < parser.untilBoundary) :
    parser.table.isBoundary (parser.token index).kind = false := by
  have inside : index < parser.pending.length := Nat.lt_of_lt_of_le before untilBoundary_le
  have other := List.not_of_lt_findIdx before
  simpa [token, inside] using other

theorem Standard.isBoundary_untilBoundary (standard : parser.Standard) :
    parser.table.isBoundary (parser.token parser.untilBoundary).kind = true := by
  by_cases inside : parser.untilBoundary < parser.pending.length
  · have found : parser.token parser.untilBoundary = parser.pending[parser.untilBoundary] := by
      simp [token, inside]
    rw [found]
    exact List.findIdx_getElem (w := inside)
  · have finished : parser.token parser.untilBoundary = parser.finish := by
      simp [token, List.getElem?_eq_none (Nat.le_of_not_lt inside)]
    simp [finished, Table.isBoundary, standard.finish]

/-- The tokens up to the next boundary, and the boundary itself if it is a semicolon. -/
def landing (parser : Parser) : Nat :=
  if (parser.token parser.untilBoundary).kind = .semicolon then parser.untilBoundary + 1
  else parser.untilBoundary

theorem untilBoundary_le_landing : parser.untilBoundary ≤ parser.landing := by
  unfold landing
  split <;> omega

theorem synchronize_apply : parser.synchronize = parser.beyond parser.landing [] := by
  have dropped : (parser.pending.takeWhile fun token =>
      !parser.table.isBoundary token.kind).length = parser.untilBoundary := by
    rw [List.takeWhile_eq_take_findIdx_not, List.length_take]
    simp only [Bool.not_not]
    exact Nat.min_eq_left untilBoundary_le
  unfold synchronize landing
  simp only [dropped, advance_eq_beyond, current_beyond]
  split <;> simp

theorem Standard.landing_le (standard : parser.Standard) :
    parser.landing ≤ parser.pending.length := by
  unfold landing
  split
  · rename_i semicolon
    exact standard.lt_length (by simp [semicolon])
  · exact untilBoundary_le

/-- How many tokens are gone when the parse goes on after a statement that failed at the
token with this number. -/
def resumed (parser : Parser) (count : Nat) : Nat :=
  if count = 0 ∧ parser.current.kind = .semicolon then 1
  else max 1 count + (parser.beyond (max 1 count) []).landing

theorem resumed_pos : 0 < parser.resumed count := by
  unfold resumed
  split <;> omega

theorem le_resumed : count ≤ parser.resumed count := by
  unfold resumed
  split <;> omega

theorem resume_apply :
    (parser.beyond count found).resume parser.consumed =
      parser.beyond (parser.resumed count) found := by
  have same : ∀ more others, (parser.beyond more others).landing =
      (parser.beyond more []).landing := fun _ _ => rfl
  unfold resume resumed
  cases count with
  | zero =>
      rw [if_pos (show (parser.beyond 0 found).consumed = parser.consumed from rfl),
        advance_eq_beyond, beyond_beyond, synchronize_apply, beyond_beyond, same]
      by_cases semicolon : parser.current.kind = .semicolon
      · rw [if_pos (show (parser.beyond 0 found).current.kind = .semicolon from semicolon),
          if_pos ⟨rfl, semicolon⟩]
        simp
      · rw [if_neg (show (parser.beyond 0 found).current.kind ≠ .semicolon from semicolon),
          if_neg (fun both => semicolon both.2)]
        simp
  | succ count =>
      have moved : (parser.beyond (count + 1) found).consumed ≠ parser.consumed := by
        simp
      have begins : max 1 (count + 1) = count + 1 := by omega
      rw [if_neg moved, if_neg (fun both => Nat.succ_ne_zero count both.1), begins,
        synchronize_apply, beyond_beyond, List.append_nil, same]

theorem Standard.resumed_le (standard : parser.Standard)
    (present : parser.current.kind ≠ .endOfInput) (inside : count ≤ parser.pending.length) :
    parser.resumed count ≤ parser.pending.length := by
  have first : 0 < parser.pending.length := standard.lt_length present
  have later : (parser.beyond (max 1 count) []).landing ≤ parser.pending.length - max 1 count := by
    have bound := (standard.beyond : (parser.beyond (max 1 count) []).Standard).landing_le
    rwa [beyond_pending, List.length_drop] at bound
  unfold resumed
  split <;> omega

end Parser

theorem Routine.recovering_failed {parser : Parser} {count : Nat} {found : List Diagnostic}
    {statement : Routine Statement} {diagnostic : Diagnostic}
    (run : statement parser = .failed diagnostic (parser.beyond count found)) :
    recovering statement parser =
      .ok none (parser.beyond (parser.resumed count) (found ++ [diagnostic])) := by
  rw [recovering, run]
  dsimp only
  rw [Parser.record_eq_beyond, Parser.beyond_beyond, Nat.add_zero, Parser.resume_apply]

namespace Outcome.Meets

/-- The failure of a statement is recorded, and the next one begins after the boundary. -/
theorem recovering {parser : Parser} {statement : Routine Statement} {first : Contract Statement}
    {contract : Contract (Option Statement)} (met : (statement parser).Meets parser first)
    (ok : ∀ value count found, first.ok value count found → contract.ok (some value) count found)
    (failed : ∀ diagnostic count found, first.failed diagnostic count found →
      contract.ok none (parser.resumed count) (found ++ [diagnostic]))
    (endless : first.endless → contract.endless) :
    (Routine.recovering statement parser).Meets parser contract := by
  generalize run : statement parser = outcome at met
  cases met with
  | ok kept =>
      rw [Routine.recovering, run]
      exact .ok (ok _ _ _ kept)
  | failed kept =>
      rw [Routine.recovering_failed run]
      exact .ok (failed _ _ _ kept)
  | endless kept =>
      rw [Routine.recovering, run]
      exact .endless (endless kept)

end Outcome.Meets

end Monkey
