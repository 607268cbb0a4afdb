import Monkey.Parser.Routine

namespace Monkey

/-! What a routine promises of the parser it leaves.

Whatever a routine does, it only consumes tokens and records diagnostics.  A contract
speaks of how many and which, and rules that follow the ways in which routines are put
together turn contracts of the parts into a contract of the whole.
-/

namespace Parser

/-- The parser once `count` more tokens are consumed and `found` is recorded. -/
def beyond (parser : Parser) (count : Nat) (found : List Diagnostic) : Parser :=
  { parser with
    pending := parser.pending.drop count
    consumed := parser.consumed + count
    diagnostics := parser.diagnostics ++ found }

variable {parser : Parser} {count more : Nat} {found others : List Diagnostic}

@[simp] theorem beyond_pending :
    (parser.beyond count found).pending = parser.pending.drop count := rfl

@[simp] theorem beyond_finish : (parser.beyond count found).finish = parser.finish := rfl

@[simp] theorem beyond_consumed :
    (parser.beyond count found).consumed = parser.consumed + count := rfl

@[simp] theorem beyond_depth : (parser.beyond count found).depth = parser.depth := rfl

@[simp] theorem beyond_table : (parser.beyond count found).table = parser.table := rfl

@[simp] theorem beyond_diagnostics :
    (parser.beyond count found).diagnostics.toList = parser.diagnostics.toList ++ found := by
  simp [beyond]

@[simp] theorem beyond_zero : parser.beyond 0 [] = parser := by
  simp [beyond]

@[simp] theorem beyond_beyond :
    (parser.beyond count found).beyond more others =
      parser.beyond (count + more) (found ++ others) := by
  have joined : parser.diagnostics ++ found ++ others = parser.diagnostics ++ (found ++ others) :=
    Array.toList_inj.1 (by simp)
  simp [beyond, Nat.add_assoc, joined]

theorem advance_eq_beyond : parser.advance count = parser.beyond count [] := by
  simp [advance, beyond]

theorem record_eq_beyond (diagnostic : Diagnostic) :
    parser.record diagnostic = parser.beyond 0 [diagnostic] := by
  simp [record, beyond]

theorem beyond_injective (same : parser.beyond count found = parser.beyond more others) :
    count = more ∧ found = others := by
  have consumed := congrArg Parser.consumed same
  have diagnostics := congrArg (fun parser => parser.diagnostics.toList) same
  simp only [beyond_consumed, Nat.add_left_cancel_iff] at consumed
  simp only [beyond_diagnostics, List.append_cancel_left_eq] at diagnostics
  exact ⟨consumed, diagnostics⟩

/-- The token with this number, counted from the current one. -/
def token (parser : Parser) (index : Nat) : Token :=
  parser.pending[index]?.getD parser.finish

theorem token_zero : parser.token 0 = parser.current := rfl

@[simp] theorem token_beyond (index : Nat) :
    (parser.beyond count found).token index = parser.token (count + index) := by
  simp [token]

@[simp] theorem current_beyond : (parser.beyond count found).current = parser.token count := by
  rw [← token_zero, token_beyond, Nat.add_zero]

def taken (parser : Parser) (count : Nat) : List Token :=
  parser.pending.take count

@[simp] theorem taken_zero : parser.taken 0 = [] := rfl

theorem taken_add (found : List Diagnostic) :
    parser.taken (count + more) = parser.taken count ++ (parser.beyond count found).taken more := by
  simp [taken, List.take_add]

theorem pos_of_taken (consumed : parser.taken count ≠ []) : 0 < count := by
  apply Nat.pos_of_ne_zero
  rintro rfl
  exact consumed taken_zero

theorem taken_ne_nil (positive : 0 < count) (present : parser.pending ≠ []) :
    parser.taken count ≠ [] := by
  have length := List.length_pos_iff.2 present
  apply List.ne_nil_of_length_pos
  rw [taken, List.length_take]
  omega

theorem current_of_leading {tokens : List Token} {first : Token}
    (leading : tokens <+: parser.pending)
    (member : first ∈ tokens.head?) : first = parser.current := by
  obtain ⟨rest, pending⟩ := leading
  cases tokens with
  | nil => simp at member
  | cons token tokens =>
      simp only [List.head?_cons, Option.mem_some_iff] at member
      simp [current, ← pending, member]

end Parser

/-- What is promised of the outcomes of a routine: of a value with the number of tokens
consumed and the diagnostics recorded before it, of a failure likewise, and of a
routine that has no end. -/
structure Contract (α : Type) where
  ok : α → Nat → List Diagnostic → Prop
  failed : Diagnostic → Nat → List Diagnostic → Prop
  endless : Prop

namespace Contract

variable {α : Type}

def rest (contract : Contract α) (count : Nat) (found : List Diagnostic) : Contract α where
  ok value more others := contract.ok value (count + more) (found ++ others)
  failed diagnostic more others := contract.failed diagnostic (count + more) (found ++ others)
  endless := contract.endless

def onSuccess (promise : α → Nat → List Diagnostic → Prop) : Contract α where
  ok := promise
  failed _ _ _ := True
  endless := True

end Contract

namespace Outcome

variable {α : Type}

/-- An outcome of a run from `parser` that keeps a promise. -/
inductive Meets (parser : Parser) (contract : Contract α) : Outcome α → Prop
  | ok {value : α} {count : Nat} {found : List Diagnostic}
      (kept : contract.ok value count found) :
      Meets parser contract (.ok value (parser.beyond count found))
  | failed {diagnostic : Diagnostic} {count : Nat} {found : List Diagnostic}
      (kept : contract.failed diagnostic count found) :
      Meets parser contract (.failed diagnostic (parser.beyond count found))
  | endless (kept : contract.endless) : Meets parser contract .endless

end Outcome

namespace Outcome.Meets

variable {α β : Type} {parser : Parser} {outcome : Outcome α}

theorem mono {weak strong : Contract α} (met : outcome.Meets parser strong)
    (ok : ∀ value count found, strong.ok value count found → weak.ok value count found)
    (failed : ∀ diagnostic count found,
      strong.failed diagnostic count found → weak.failed diagnostic count found)
    (endless : strong.endless → weak.endless) : outcome.Meets parser weak := by
  cases met with
  | ok kept => exact .ok (ok _ _ _ kept)
  | failed kept => exact .failed (failed _ _ _ kept)
  | endless kept => exact .endless (endless kept)

theorem of_ok {contract : Contract α} {value : α} {count : Nat} {found : List Diagnostic}
    (met : (Outcome.ok value (parser.beyond count found)).Meets parser contract) :
    contract.ok value count found := by
  generalize same : Outcome.ok value (parser.beyond count found) = outcome at met
  cases met with
  | ok kept =>
      injection same with values parsers
      obtain ⟨rfl, rfl⟩ := Parser.beyond_injective parsers
      rw [values]
      exact kept
  | failed _ => cases same
  | endless _ => cases same

theorem of_failed {contract : Contract α} {diagnostic : Diagnostic} {count : Nat}
    {found : List Diagnostic}
    (met : (Outcome.failed diagnostic (parser.beyond count found) : Outcome α).Meets parser
      contract) : contract.failed diagnostic count found := by
  generalize same : (Outcome.failed diagnostic (parser.beyond count found) : Outcome α) = outcome
    at met
  cases met with
  | ok _ => cases same
  | failed kept =>
      injection same with diagnostics parsers
      obtain ⟨rfl, rfl⟩ := Parser.beyond_injective parsers
      rw [diagnostics]
      exact kept
  | endless _ => cases same

/-- Two promises kept by one outcome speak of the same tokens and diagnostics. -/
theorem and {first second : Contract α} (met : outcome.Meets parser first)
    (also : outcome.Meets parser second) :
    outcome.Meets parser
      { ok := fun value count found => first.ok value count found ∧ second.ok value count found
        failed := fun diagnostic count found =>
          first.failed diagnostic count found ∧ second.failed diagnostic count found
        endless := first.endless ∧ second.endless } := by
  cases met with
  | ok kept => exact .ok ⟨kept, also.of_ok⟩
  | failed kept => exact .failed ⟨kept, also.of_failed⟩
  | endless kept =>
      cases also with
      | endless alsoKept => exact .endless ⟨kept, alsoKept⟩

theorem succeeds {contract : Contract α} (met : outcome.Meets parser contract)
    (failed : ∀ diagnostic count found, ¬ contract.failed diagnostic count found)
    (endless : ¬ contract.endless) :
    ∃ value count found, outcome = .ok value (parser.beyond count found) ∧
      contract.ok value count found := by
  cases met with
  | @ok value count found kept => exact ⟨value, count, found, rfl, kept⟩
  | failed kept => exact absurd kept (failed _ _ _)
  | endless kept => exact absurd kept endless

theorem ofRest {contract : Contract α} {count : Nat} {found : List Diagnostic}
    (met : outcome.Meets (parser.beyond count found) (contract.rest count found)) :
    outcome.Meets parser contract := by
  cases met with
  | ok kept => rw [Parser.beyond_beyond]; exact .ok kept
  | failed kept => rw [Parser.beyond_beyond]; exact .failed kept
  | endless kept => exact .endless kept

theorem bind {first : Contract α} {contract : Contract β} {routine : Routine α}
    {next : α → Routine β} (met : (routine parser).Meets parser first)
    (failed : ∀ diagnostic count found,
      first.failed diagnostic count found → contract.failed diagnostic count found)
    (endless : first.endless → contract.endless)
    (continues : ∀ value count found, first.ok value count found →
      (next value (parser.beyond count found)).Meets (parser.beyond count found)
        (contract.rest count found)) :
    ((routine >>= next) parser).Meets parser contract := by
  rw [Routine.bind_apply]
  generalize routine parser = outcome at met ⊢
  cases met with
  | ok kept => exact .ofRest (continues _ _ _ kept)
  | failed kept => exact .failed (failed _ _ _ kept)
  | endless kept => exact .endless (endless kept)

theorem pure {contract : Contract α} {value : α} (kept : contract.ok value 0 []) :
    ((Pure.pure value : Routine α) parser).Meets parser contract := by
  have met : Meets parser contract (.ok value (parser.beyond 0 [])) := .ok kept
  rwa [Parser.beyond_zero] at met

theorem fail {contract : Contract α} {cause : Cause}
    (kept : contract.failed ⟨cause, parser.position⟩ 0 []) :
    (Routine.fail cause parser : Outcome α).Meets parser contract := by
  have met : Meets parser contract (.failed ⟨cause, parser.position⟩ (parser.beyond 0 [])) :=
    .failed kept
  rwa [Parser.beyond_zero] at met

theorem advance {contract : Contract Token} (kept : contract.ok parser.current 1 []) :
    (Routine.advance parser).Meets parser contract := by
  have met : Meets parser contract (.ok parser.current (parser.beyond 1 [])) := .ok kept
  rwa [← Parser.advance_eq_beyond] at met

theorem expect {contract : Contract Token} {kind : Kind}
    (found : parser.current.kind = kind → contract.ok parser.current 1 [])
    (missing : parser.current.kind ≠ kind →
      contract.failed ⟨.expectedToken kind parser.current.kind, parser.position⟩ 0 []) :
    (Routine.expect kind parser).Meets parser contract := by
  unfold Routine.expect
  split
  · rename_i present
    exact .advance (found present)
  · rename_i absent
    exact .fail (missing absent)

theorem skip {contract : Contract Bool} {kind : Kind}
    (found : parser.current.kind = kind → contract.ok true 1 [])
    (missing : parser.current.kind ≠ kind → contract.ok false 0 []) :
    (Routine.skip kind parser).Meets parser contract := by
  unfold Routine.skip
  split
  · rename_i present
    rw [Parser.advance_eq_beyond]
    exact .ok (found present)
  · rename_i absent
    exact .pure (missing absent)

theorem nested {contract : Contract α} {routine : Routine α}
    (full : nestingLimit ≤ parser.depth →
      contract.failed ⟨.nestedTooDeep nestingLimit, parser.position⟩ 0 [])
    (inside : parser.depth < nestingLimit →
      (routine { parser with depth := parser.depth + 1 }).Meets
        { parser with depth := parser.depth + 1 } contract) :
    (Routine.nested routine parser).Meets parser contract := by
  unfold Routine.nested Routine.enter
  split
  · rename_i entered
    split at entered
    · cases entered
    · rename_i room
      cases entered
      have met := inside (Nat.lt_of_not_le room)
      generalize routine { parser with depth := parser.depth + 1 } = outcome at met ⊢
      cases met with
      | ok kept => exact .ok kept
      | failed kept => exact .failed kept
      | endless kept => exact .endless kept
  · rename_i refused
    split at refused
    · rename_i deep
      cases refused
      exact .fail (full deep)
    · cases refused
  · rename_i impossible
    split at impossible <;> cases impossible

/-- What holds before the first round and is kept by every round that consumes something
and asks for another holds before the last round. -/
theorem iterate {round : α → Routine (Round α β)} {contract : Contract β}
    (invariant : α → Nat → List Diagnostic → Prop)
    (step : ∀ value count found, invariant value count found →
      (round value (parser.beyond count found)).Meets (parser.beyond count found)
        { ok := fun decision more others =>
            match decision with
            | .again next =>
                ((parser.beyond count found).taken more ≠ [] ∨ contract.endless) ∧
                  ((parser.beyond count found).taken more ≠ [] →
                    invariant next (count + more) (found ++ others))
            | .done result => contract.ok result (count + more) (found ++ others)
          failed := fun diagnostic more others =>
            contract.failed diagnostic (count + more) (found ++ others)
          endless := contract.endless })
    {value : α} (start : invariant value 0 []) :
    (Routine.iterate round value parser).Meets parser contract := by
  suffices run : ∀ (left : Nat) (value : α) (count : Nat) (found : List Diagnostic),
      (parser.pending.drop count).length = left → invariant value count found →
      (Routine.iterate round value (parser.beyond count found)).Meets parser contract by
    have met := run _ value 0 [] rfl start
    rwa [Parser.beyond_zero] at met
  intro left
  induction left using Nat.strongRecOn with
  | ind left ih =>
      intro value count found length holds
      have met := step value count found holds
      unfold Routine.iterate
      generalize round value (parser.beyond count found) = outcome at met ⊢
      cases met with
      | @ok decision more others kept =>
          cases decision with
          | done result =>
              rw [Parser.beyond_beyond]
              exact .ok kept
          | again next =>
              obtain ⟨progress, holds⟩ := kept
              have progress_iff : (parser.beyond count found).taken more ≠ [] ↔
                  ((parser.beyond count found).beyond more others).pending.length <
                    (parser.beyond count found).pending.length := by
                rw [← List.length_pos_iff]
                simp only [Parser.taken, Parser.beyond_pending, List.length_take,
                  List.length_drop]
                omega
              dsimp only
              split
              · rename_i shorter
                have kept := holds (progress_iff.2 shorter)
                rw [Parser.beyond_beyond]
                refine ih _ ?_ next _ _ rfl kept
                simpa [← length] using shorter
              · rename_i stuck
                rcases progress with consumed | endless
                · exact absurd (progress_iff.1 consumed) stuck
                · exact .endless endless
      | failed kept =>
          rw [Parser.beyond_beyond]
          exact .failed kept
      | endless kept => exact .endless kept

end Outcome.Meets

end Monkey
