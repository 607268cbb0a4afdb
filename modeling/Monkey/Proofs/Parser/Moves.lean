import Monkey.Proofs.Parser.Recipe
import Monkey.Proofs.Parser.Running

namespace Monkey

/-! What a run does to its parser, one thing after another.

The moves of a run are computed along the recipe of its routine.  Replayed on the parser
that the run began with, they lead to the one that it leaves; replayed in part, to the one
that it had at that moment.
-/

/-- One change to a parser. -/
inductive Move where
  /-- A step of the cursor. -/
  | advance
  | record (diagnostic : Diagnostic)
  /-- An expression or a block is opened. -/
  | enter
  /-- An expression or a block is closed. -/
  | leave
deriving DecidableEq

namespace Parser

variable {parser : Parser} {moves others : List Move} {count : Nat} {found : List Diagnostic}

def move (parser : Parser) : Move → Parser
  | .advance => parser.advance 1
  | .record diagnostic => parser.record diagnostic
  | .enter => { parser with depth := parser.depth + 1 }
  | .leave => parser.leave

@[simp] theorem depth_advance : (parser.move .advance).depth = parser.depth := rfl

@[simp] theorem depth_record {diagnostic : Diagnostic} :
    (parser.move (.record diagnostic)).depth = parser.depth := rfl

@[simp] theorem depth_enter : (parser.move .enter).depth = parser.depth + 1 := rfl

@[simp] theorem depth_leave : (parser.move .leave).depth = parser.depth - 1 := rfl

def replay (parser : Parser) (moves : List Move) : Parser :=
  moves.foldl move parser

@[simp] theorem replay_nil : parser.replay [] = parser := rfl

@[simp] theorem replay_cons {first : Move} :
    parser.replay (first :: moves) = (parser.move first).replay moves := rfl

@[simp] theorem replay_append :
    parser.replay (moves ++ others) = (parser.replay moves).replay others :=
  List.foldl_append

@[simp] theorem replay_advance :
    parser.replay (List.replicate count .advance) = parser.advance count := by
  induction count generalizing parser with
  | zero => simp [advance]
  | succ count ih => rw [List.replicate_succ, replay_cons, ih, move, advance_advance,
      Nat.add_comm]

@[simp] theorem replay_record :
    parser.replay (found.map .record) = parser.beyond 0 found := by
  induction found generalizing parser with
  | nil => simp
  | cons diagnostic found ih => simp [ih, move, record_eq_beyond]

@[simp] theorem replay_pending :
    (parser.replay moves).pending = parser.pending.drop (moves.count .advance) := by
  induction moves generalizing parser with
  | nil => simp
  | cons first moves ih =>
      rw [replay_cons, ih]
      cases first <;> simp [move, advance, record, leave]

@[simp] theorem replay_finish : (parser.replay moves).finish = parser.finish := by
  induction moves generalizing parser with
  | nil => rfl
  | cons first moves ih =>
      rw [replay_cons, ih]
      cases first <;> rfl

@[simp] theorem replay_consumed :
    (parser.replay moves).consumed = parser.consumed + moves.count .advance := by
  induction moves generalizing parser with
  | nil => rfl
  | cons first moves ih =>
      rw [replay_cons, ih]
      cases first <;> simp [move, advance, record, leave, Nat.add_assoc, Nat.add_comm 1]

@[simp] theorem token_replay (index : Nat) :
    (parser.replay moves).token index = parser.token (moves.count .advance + index) := by
  simp [token]

theorem current_replay : (parser.replay moves).current = parser.token (moves.count .advance) := by
  rw [← token_zero, token_replay, Nat.add_zero]

/-- Moves only add to what is recorded. -/
theorem diagnostics_replay :
    parser.diagnostics.toList <+: (parser.replay moves).diagnostics.toList := by
  induction moves generalizing parser with
  | nil => exact List.prefix_refl _
  | cons first moves ih =>
      refine List.IsPrefix.trans ?_ (@ih (parser.move first))
      cases first <;> simp [move, advance, record, leave]

@[simp] theorem replay_setTable {table : Table} :
    (parser.setTable table).replay moves = (parser.replay moves).setTable table := by
  induction moves generalizing parser with
  | nil => rfl
  | cons first moves ih =>
      have same : (parser.setTable table).move first = (parser.move first).setTable table := by
        cases first <;> rfl
      rw [replay_cons, replay_cons, same, ih]

/-- How many steps a parse takes to go on after a statement that failed. -/
def dropped (parser : Parser) (start : Nat) : Nat :=
  (parser.resume start).consumed - parser.consumed

/-- However a parse goes on after a statement that failed, it only takes steps. -/
theorem resume_eq_advance (start : Nat) :
    parser.resume start = parser.advance (parser.dropped start) := by
  have drops : ∃ count, parser.resume start = parser.advance count := by
    unfold resume
    split
    · split
      · exact ⟨1, rfl⟩
      · exact ⟨1 + (parser.advance 1).landing, by
          rw [synchronize_apply, ← advance_eq_beyond, advance_advance]⟩
    · exact ⟨parser.landing, by rw [synchronize_apply, ← advance_eq_beyond]⟩
  obtain ⟨count, resumed⟩ := drops
  rw [dropped, resumed]
  congr 1
  exact (Nat.add_sub_cancel_left ..).symm

end Parser

/-- The parser that is left; there is none if there is no end. -/
def Outcome.after? {α : Type} : Outcome α → Option Parser
  | .ok _ after => some after
  | .failed _ after => some after
  | .endless => none

theorem Outcome.exists_after {α : Type} {outcome : Outcome α} (finite : outcome ≠ .endless) :
    ∃ after, outcome.after? = some after := by
  cases outcome with
  | ok value after => exact ⟨after, rfl⟩
  | failed diagnostic after => exact ⟨after, rfl⟩
  | endless => exact absurd rfl finite

theorem Outcome.after?_mapAfter {α : Type} {change : Parser → Parser} (outcome : Outcome α) :
    (outcome.mapAfter change).after? = outcome.after?.map change := by
  cases outcome <;> rfl

theorem Routine.after?_nested {α : Type} {routine : Routine α} {parser : Parser} :
    (nested routine parser).after? =
      if nestingLimit ≤ parser.depth then some parser
      else (routine (parser.move .enter)).after?.map Parser.leave := by
  unfold nested enter
  split
  · rename_i entered
    split at entered
    · cases entered
    · rename_i room
      cases entered
      rw [if_neg room]
      exact Outcome.after?_mapAfter _
  · rename_i refused
    split at refused
    · rename_i full
      cases refused
      rw [if_pos full]
      rfl
    · cases refused
  · rename_i impossible
    split at impossible <;> cases impossible

namespace Routine

variable {α β : Type} {parser after : Parser}

theorem after?_bind {routine : Routine α} {next : α → Routine β}
    (left : ((routine >>= next) parser).after? = some after) :
    (∃ value middle, routine parser = .ok value middle ∧
      (next value middle).after? = some after) ∨
    ∃ diagnostic, routine parser = .failed diagnostic after := by
  rw [bind_apply] at left
  cases run : routine parser with
  | ok value middle =>
      rw [run] at left
      exact .inl ⟨value, middle, rfl, left⟩
  | failed diagnostic middle =>
      rw [run] at left
      cases left
      exact .inr ⟨diagnostic, rfl⟩
  | endless =>
      rw [run] at left
      cases left

theorem after?_recovering {statement : Routine Statement}
    (left : (recovering statement parser).after? = some after) :
    (∃ value, statement parser = .ok value after) ∨
    ∃ diagnostic middle, statement parser = .failed diagnostic middle ∧
      after = (middle.record diagnostic).resume parser.consumed := by
  unfold recovering at left
  cases run : statement parser with
  | ok value middle =>
      rw [run] at left
      cases left
      exact .inl ⟨value, rfl⟩
  | failed diagnostic middle =>
      rw [run] at left
      cases left
      exact .inr ⟨diagnostic, middle, rfl, rfl⟩
  | endless =>
      rw [run] at left
      cases left

/-- A loop that ends does so with its first round, or its later rounds do. -/
theorem after?_iterate {round : α → Routine (Round α β)} {value : α}
    (left : (iterate round value parser).after? = some after) :
    (∃ result, round value parser = .ok (.done result) after) ∨
    (∃ next middle, round value parser = .ok (.again next) middle ∧
      middle.pending.length < parser.pending.length ∧
      (iterate round next middle).after? = some after) ∨
    ∃ diagnostic, round value parser = .failed diagnostic after := by
  unfold iterate at left
  cases run : round value parser with
  | ok decision middle =>
      rw [run] at left
      cases decision with
      | done result =>
          cases left
          exact .inl ⟨result, rfl⟩
      | again next =>
          dsimp only at left
          split at left
          · rename_i consumed
            exact .inr (.inl ⟨next, middle, rfl, consumed, left⟩)
          · cases left
  | failed diagnostic middle =>
      rw [run] at left
      cases left
      exact .inr (.inr ⟨diagnostic, rfl⟩)
  | endless =>
      rw [run] at left
      cases left

end Routine

/-- The moves of a loop, round by round. -/
def Routine.roundMoves {α β : Type} (round : α → Routine (Round α β))
    (moves : α → Parser → List Move) (value : α) (parser : Parser) : List Move :=
  moves value parser ++
    match round value parser with
    | .ok (.again next) after =>
        if _consumed : after.pending.length < parser.pending.length then
          roundMoves round moves next after
        else []
    | .ok (.done _) _ => []
    | .failed .. => []
    | .endless => []
termination_by parser.pending.length

namespace Recipe

def moves : {α : Type} → {routine : Routine α} → Recipe routine → Parser → List Move
  | _, _, .pure, _ => []
  | _, _, .state, _ => []
  | _, _, .fail, _ => []
  | _, _, .advance, _ => [.advance]
  | _, _, @expect kind, parser => if parser.current.kind = kind then [.advance] else []
  | _, _, @skip kind, parser => if parser.current.kind = kind then [.advance] else []
  | _, _, .atom, parser => .advance :: parser.current.excess.map .record
  | _, _, @bind _ _ routine _ first later, parser =>
      first.moves parser ++
        match routine parser with
        | .ok value after => (later value).moves after
        | .failed .. => []
        | .endless => []
  | _, _, @nested _ routine inside, parser =>
      if nestingLimit ≤ parser.depth then []
      else
        .enter :: (inside.moves (parser.move .enter) ++
          match (routine (parser.move .enter)).after? with
          | some _ => [.leave]
          | none => [])
  | _, _, @recovering statement inside, parser =>
      inside.moves parser ++
        match statement parser with
        | .ok .. => []
        | .failed diagnostic after =>
            .record diagnostic ::
              List.replicate ((after.record diagnostic).dropped parser.consumed) .advance
        | .endless => []
  | _, _, @iterate _ _ round start each, parser =>
      Routine.roundMoves round (fun value => (each value).moves) start parser

end Recipe

theorem Routine.roundMoves_leads {α β : Type} {round : α → Routine (Round α β)}
    {moves : α → Parser → List Move}
    (leads : ∀ {value : α} {parser after : Parser},
      (round value parser).after? = some after → after = parser.replay (moves value parser))
    {value : α} {parser after : Parser}
    (left : (iterate round value parser).after? = some after) :
    after = parser.replay (roundMoves round moves value parser) := by
  fun_induction roundMoves round moves value parser with
  | case1 value parser ih =>
      rw [Parser.replay_append]
      rcases after?_iterate left with
        ⟨result, run⟩ | ⟨next, middle, run, consumed, rest⟩ | ⟨diagnostic, run⟩
      · rw [← leads (congrArg Outcome.after? run), run]
        rfl
      · rw [← leads (congrArg Outcome.after? run), run]
        dsimp only
        rw [dif_pos consumed]
        exact ih next middle consumed rest
      · rw [← leads (congrArg Outcome.after? run), run]
        rfl

namespace Recipe

/-- The moves of a run lead to the parser that it leaves. -/
theorem leads {α : Type} {routine : Routine α} (recipe : Recipe routine) {parser after : Parser}
    (left : (routine parser).after? = some after) :
    after = parser.replay (recipe.moves parser) := by
  induction recipe generalizing parser after with
  | pure => cases left; rfl
  | state => cases left; rfl
  | fail => cases left; rfl
  | advance => cases left; rfl
  | expect =>
      unfold Routine.expect at left
      split at left <;> rename_i test <;> cases left <;> simp only [moves, test] <;> rfl
  | skip =>
      unfold Routine.skip at left
      split at left <;> rename_i test <;> cases left <;> simp only [moves, test] <;> rfl
  | atom =>
      rw [Routine.atom_apply] at left
      cases left
      rw [moves, Parser.replay_cons, Parser.replay_record, Parser.move, Parser.advance_eq_beyond,
        Parser.beyond_beyond]
      rfl
  | bind first later firstLeads laterLeads =>
      rw [moves, Parser.replay_append]
      rcases Routine.after?_bind left with ⟨value, middle, run, rest⟩ | ⟨diagnostic, run⟩
      · rw [← firstLeads (congrArg Outcome.after? run), run]
        exact laterLeads value rest
      · rw [← firstLeads (congrArg Outcome.after? run), run]
        rfl
  | nested inside ih =>
      rw [Routine.after?_nested] at left
      unfold moves
      split at left
      · rename_i full
        rw [if_pos full]
        exact (Option.some.inj left).symm
      · rename_i room
        obtain ⟨middle, run, rfl⟩ := Option.map_eq_some_iff.1 left
        rw [if_neg room, run, Parser.replay_cons, Parser.replay_append, ← ih run]
        rfl
  | recovering inside ih =>
      rw [moves, Parser.replay_append]
      rcases Routine.after?_recovering left with ⟨value, run⟩ | ⟨diagnostic, middle, run, rfl⟩
      · rw [← ih (congrArg Outcome.after? run), run]
        rfl
      · rw [← ih (congrArg Outcome.after? run), run]
        dsimp only
        rw [Parser.replay_cons, Parser.replay_advance, Parser.move, ← Parser.resume_eq_advance]
  | iterate each ih => exact Routine.roundMoves_leads (fun left => ih _ left) left

end Recipe

end Monkey
