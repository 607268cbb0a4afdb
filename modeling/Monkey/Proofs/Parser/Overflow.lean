import Monkey.Proofs.Parser.Reading
import Monkey.Proofs.Parser.Running

namespace Monkey

/-! Running out of levels.

The first thing that goes wrong, apart from the size of integers, is that too many levels
are open.  What happens after that does not matter.
-/

/-- Too many levels is the first diagnostic that is not about an integer. -/
def Overflows (found : List Diagnostic) : Prop :=
  ∃ before deep others, found = before ++ deep :: others ∧ Clean before ∧
    deep.cause = .nestedTooDeep nestingLimit

namespace Overflows

variable {found others : List Diagnostic}

theorem one {deep : Diagnostic} (cause : deep.cause = .nestedTooDeep nestingLimit) :
    Overflows [deep] :=
  ⟨[], deep, [], rfl, .nil, cause⟩

theorem append (overflows : Overflows found) : Overflows (found ++ others) := by
  obtain ⟨before, deep, after, rfl, clean, cause⟩ := overflows
  exact ⟨before, deep, after ++ others, by simp, clean, cause⟩

theorem prepend (clean : Clean others) (overflows : Overflows found) :
    Overflows (others ++ found) := by
  obtain ⟨before, deep, after, rfl, beforeClean, cause⟩ := overflows
  exact ⟨others ++ before, deep, after, by simp, Clean.append_iff.2 ⟨clean, beforeClean⟩, cause⟩

theorem not_clean (overflows : Overflows found) : ¬ Clean found := by
  obtain ⟨before, deep, after, rfl, _, cause⟩ := overflows
  intro clean
  obtain ⟨text, outOfRange⟩ := clean deep (by simp)
  cases cause.symm.trans outOfRange

end Overflows

theorem Clean.excess (tokens : List Token) : Clean (tokens.flatMap Token.excess) := by
  intro diagnostic member
  obtain ⟨token, _, recorded⟩ := List.mem_flatMap.1 member
  unfold Token.excess at recorded
  split at recorded
  · rw [List.mem_singleton.1 recorded]
    exact ⟨token.text, rfl⟩
  · cases recorded

namespace Contract

variable {α : Type}

/-- Nothing is promised but that tokens are consumed and diagnostics added. -/
def mild : Contract α where
  ok _ _ _ := True
  failed _ _ _ := True
  endless := True

/-- Too many levels were open, whether that was recorded already or is handed back. -/
def exceeds : Contract α where
  ok _ _ found := Overflows found
  failed diagnostic _ found := Overflows (found ++ [diagnostic])
  endless := True

end Contract

namespace Outcome.Meets

variable {α β : Type} {parser : Parser}

theorem mild {outcome : Outcome α} {contract : Contract α}
    (met : outcome.Meets parser contract) : outcome.Meets parser .mild :=
  met.mono (fun _ _ _ _ => trivial) (fun _ _ _ _ => trivial) (fun _ => trivial)

theorem bind_mild {routine : Routine α} {next : α → Routine β} {contract : Contract α}
    (standard : parser.Standard) (met : (routine parser).Meets parser contract)
    (continues : ∀ (value : α) (parser : Parser), parser.Standard →
      (next value parser).Meets parser .mild) :
    ((routine >>= next) parser).Meets parser .mild :=
  met.mild.bind (fun _ _ _ _ => trivial) (fun _ => trivial) fun value _ _ _ =>
    (continues value _ standard.beyond).mild

theorem pure_mild {value : α} :
    ((Pure.pure value : Routine α) parser).Meets parser .mild :=
  .pure trivial

theorem iterate_mild {round : α → Routine (Round α β)} (standard : parser.Standard)
    (step : ∀ (value : α) (parser : Parser), parser.Standard →
      (round value parser).Meets parser .mild) {value : α} :
    (Routine.iterate round value parser).Meets parser .mild := by
  refine .iterate (fun _ _ _ => True) ?_ trivial
  intro value count found _
  refine (step value _ standard.beyond).mono ?_ (fun _ _ _ _ => trivial) (fun _ => trivial)
  intro decision more others _
  cases decision with
  | again next => exact ⟨.inr trivial, fun _ => trivial⟩
  | done result => exact trivial

/-- Once levels ran out, nothing that is done later changes that. -/
theorem bind_exceeds {routine : Routine α} {next : α → Routine β} (standard : parser.Standard)
    (met : (routine parser).Meets parser .exceeds)
    (continues : ∀ (value : α) (parser : Parser), parser.Standard →
      (next value parser).Meets parser .mild) :
    ((routine >>= next) parser).Meets parser .exceeds := by
  refine met.bind (fun _ _ _ overflows => overflows) id ?_
  intro value count found overflows
  refine (continues value _ standard.beyond).mono ?_ ?_ id
  · intro result more others _
    exact overflows.append
  · intro diagnostic more others _
    show Overflows (found ++ others ++ [diagnostic])
    exact overflows.append.append

theorem bind_pure_exceeds {routine : Routine α} {value : α → β} (standard : parser.Standard)
    (met : (routine parser).Meets parser .exceeds) :
    ((routine >>= fun result => Pure.pure (value result)) parser).Meets parser .exceeds :=
  bind_exceeds standard met fun _ _ _ => pure_mild

/-- What was read before levels ran out was read as it should be. -/
theorem of_past {outcome : Outcome α} (tokens : List Token)
    (met : outcome.Meets (parser.past tokens) .exceeds) : outcome.Meets parser .exceeds := by
  rw [Parser.past_eq_beyond] at met
  refine .ofRest (met.mono ?_ ?_ id)
  · intro value count found overflows
    exact overflows.prepend (.excess tokens)
  · intro diagnostic count found overflows
    show Overflows (tokens.flatMap Token.excess ++ found ++ [diagnostic])
    rw [List.append_assoc]
    exact overflows.prepend (.excess tokens)

theorem after_exceeds {routine : Routine α} {next : α → Routine β} {value : α}
    (tokens : List Token) (run : routine parser = .ok value (parser.past tokens))
    (met : (next value (parser.past tokens)).Meets (parser.past tokens) .exceeds) :
    ((routine >>= next) parser).Meets parser .exceeds := by
  rw [Routine.bind_eq run]
  exact of_past tokens met

theorem tooDeep : (Routine.fail (.nestedTooDeep nestingLimit) parser : Outcome α).Meets parser
    .exceeds :=
  .fail (.one rfl)

theorem nested_exceeds {routine : Routine α}
    (inside : (routine { parser with depth := parser.depth + 1 }).Meets
      { parser with depth := parser.depth + 1 } .exceeds) :
    (Routine.nested routine parser).Meets parser .exceeds :=
  .nested (fun _ => .one rfl) fun _ => inside

theorem iterate_exceeds {round : α → Routine (Round α β)} {value : α} (standard : parser.Standard)
    (met : (round value parser).Meets parser .exceeds)
    (step : ∀ (value : α) (parser : Parser), parser.Standard →
      (round value parser).Meets parser .mild) :
    (Routine.iterate round value parser).Meets parser .exceeds := by
  unfold Routine.iterate
  generalize round value parser = outcome at met ⊢
  cases met with
  | @ok decision count found overflows =>
      cases decision with
      | done result => exact .ok overflows
      | again next =>
          dsimp only
          split
          · refine .ofRest ((iterate_mild standard.beyond step).mono ?_ ?_ id)
            · intro result more others _
              exact overflows.append
            · intro diagnostic more others _
              exact overflows.append.append
          · exact .endless trivial
  | failed overflows => exact .failed overflows
  | endless _ => exact .endless trivial

end Outcome.Meets

end Monkey
