import Mathlib.Data.List.Induction
import Monkey.Proofs.Parser.Session

namespace Monkey

/-! How many levels are open.

Whatever a parser reads, and however that ends, it closes every level that it opens, and
it never opens one more than may be open.
-/

/-- Moves that close every level they open, so many of which may be open at once. -/
inductive Balanced : (room : Nat) → List Move → Prop
  | nil {room : Nat} : Balanced room []
  | advance {room : Nat} : Balanced room [.advance]
  | record {room : Nat} {diagnostic : Diagnostic} : Balanced room [.record diagnostic]
  | append {room : Nat} {first second : List Move} (before : Balanced room first)
      (after : Balanced room second) : Balanced room (first ++ second)
  | level {room : Nat} {inside : List Move} (balanced : Balanced room inside) :
      Balanced (room + 1) (.enter :: (inside ++ [.leave]))

namespace Balanced

variable {room : Nat} {moves past : List Move}

theorem advances (count : Nat) : Balanced room (List.replicate count .advance) := by
  induction count with
  | zero => exact .nil
  | succ count ih => exact .append .advance ih

theorem records (found : List Diagnostic) : Balanced room (found.map .record) := by
  induction found with
  | nil => exact .nil
  | cons diagnostic found ih => exact .append .record ih

theorem closed (balanced : Balanced room moves) : moves.count .leave = moves.count .enter := by
  induction balanced with
  | nil => rfl
  | advance => rfl
  | record => rfl
  | append before after beforeClosed afterClosed => simp [beforeClosed, afterClosed]
  | level balanced ih => simp [ih]

/-- At no moment were more levels closed than opened, nor are too many open. -/
theorem part (balanced : Balanced room moves) (part : past <+: moves) :
    past.count .leave ≤ past.count .enter ∧ past.count .enter ≤ past.count .leave + room := by
  induction balanced generalizing past with
  | nil => simp [List.prefix_nil.1 part]
  | advance =>
      rcases List.prefix_cons_iff.1 part with rfl | ⟨rest, rfl, nothing⟩
      · simp
      · simp [List.prefix_nil.1 nothing]
  | record =>
      rcases List.prefix_cons_iff.1 part with rfl | ⟨rest, rfl, nothing⟩
      · simp
      · simp [List.prefix_nil.1 nothing]
  | @append room first second before after beforePart afterPart =>
      rcases List.prefix_or_prefix_of_prefix part (List.prefix_append first second) with
        early | ⟨rest, rfl⟩
      · exact beforePart early
      · have late := afterPart ((List.prefix_append_right_inj first).1 part)
        have closed := before.closed
        simp only [List.count_append]
        omega
  | level balanced ih =>
      rcases List.prefix_cons_iff.1 part with rfl | ⟨rest, rfl, later⟩
      · simp
      · rcases List.prefix_concat_iff.1 later with rfl | early
        · simp [balanced.closed]
        · have inside := ih early
          rw [List.count_cons_self, List.count_cons_of_ne (by decide)]
          omega

end Balanced

namespace Parser

variable {parser : Parser} {moves : List Move}

/-- If a level is only closed after one was opened, so many levels are open as were opened and
not closed. -/
theorem replay_depth
    (opened : ∀ past, past <+: moves → past.count .leave ≤ past.count .enter) :
    (parser.replay moves).depth + moves.count .leave = parser.depth + moves.count .enter := by
  induction moves using List.reverseRecOn with
  | nil => rfl
  | append_singleton moves last ih =>
      have before := ih fun past part => opened past (part.trans (List.prefix_append moves [last]))
      have whole := opened _ (List.prefix_refl _)
      rw [replay_append, replay_cons, replay_nil, List.count_append, List.count_append]
      rw [List.count_append, List.count_append] at whole
      cases last with
      | advance => simpa using before
      | record diagnostic => simpa using before
      | enter =>
          rw [depth_enter, List.count_singleton_self, List.count_singleton, if_neg (by decide)]
          omega
      | leave =>
          rw [List.count_singleton_self, List.count_singleton, if_neg (by decide)] at whole ⊢
          rw [depth_leave]
          omega

end Parser

namespace Balanced

variable {room : Nat} {moves past : List Move}

theorem depth_of_part (balanced : Balanced room moves) (parser : Parser) (part : past <+: moves) :
    (parser.replay past).depth + past.count .leave = parser.depth + past.count .enter :=
  Parser.replay_depth fun _ earlier => (balanced.part (earlier.trans part)).1

theorem depth_replay (balanced : Balanced room moves) (parser : Parser) :
    (parser.replay moves).depth = parser.depth := by
  have depth := balanced.depth_of_part parser (List.prefix_refl moves)
  have closed := balanced.closed
  omega

end Balanced

theorem Routine.roundMoves_balanced {α β : Type} {round : α → Routine (Round α β)}
    {moves : α → Parser → List Move}
    (leads : ∀ {value : α} {parser after : Parser},
      (round value parser).after? = some after → after = parser.replay (moves value parser))
    (balanced : ∀ {value : α} {parser after : Parser},
      (round value parser).after? = some after →
        Balanced (nestingLimit - parser.depth) (moves value parser))
    {value : α} {parser after : Parser}
    (left : (iterate round value parser).after? = some after) :
    Balanced (nestingLimit - parser.depth) (roundMoves round moves value parser) := by
  fun_induction roundMoves round moves value parser with
  | case1 value parser ih =>
      rcases after?_iterate left with
        ⟨result, run⟩ | ⟨next, middle, run, consumed, rest⟩ | ⟨diagnostic, run⟩
      · rw [run]
        exact .append (balanced (congrArg Outcome.after? run)) .nil
      · have first := balanced (congrArg Outcome.after? run)
        have depth : middle.depth = parser.depth := by
          rw [leads (congrArg Outcome.after? run), first.depth_replay]
        rw [run]
        dsimp only
        rw [dif_pos consumed, ← depth]
        rw [← depth] at first
        exact .append first (ih next middle consumed rest)
      · rw [run]
        exact .append (balanced (congrArg Outcome.after? run)) .nil

namespace Recipe

/-- Every routine closes what it opens, whether it succeeds or fails. -/
theorem balanced {α : Type} {routine : Routine α} (recipe : Recipe routine)
    {parser after : Parser} (left : (routine parser).after? = some after) :
    Balanced (nestingLimit - parser.depth) (recipe.moves parser) := by
  induction recipe generalizing parser after with
  | pure => exact .nil
  | state => exact .nil
  | fail => exact .nil
  | advance => exact .advance
  | expect =>
      rw [moves]
      split
      · exact .advance
      · exact .nil
  | skip =>
      rw [moves]
      split
      · exact .advance
      · exact .nil
  | atom => exact .append .advance (.records _)
  | bind first later firstBalanced laterBalanced =>
      rw [moves]
      rcases Routine.after?_bind left with ⟨value, middle, run, rest⟩ | ⟨diagnostic, run⟩
      · have before := firstBalanced (congrArg Outcome.after? run)
        have depth : middle.depth = parser.depth := by
          rw [first.leads (congrArg Outcome.after? run), before.depth_replay]
        rw [run, ← depth]
        rw [← depth] at before
        exact .append before (laterBalanced value rest)
      · rw [run]
        exact .append (firstBalanced (congrArg Outcome.after? run)) .nil
  | nested inside ih =>
      rw [Routine.after?_nested] at left
      unfold moves
      split at left
      · rename_i full
        rw [if_pos full]
        exact .nil
      · rename_i free
        obtain ⟨middle, run, rfl⟩ := Option.map_eq_some_iff.1 left
        rw [if_neg free, run]
        have room : nestingLimit - parser.depth =
            nestingLimit - (parser.move .enter).depth + 1 := by
          rw [Parser.depth_enter]
          omega
        rw [room]
        exact .level (ih run)
  | recovering inside ih =>
      rw [moves]
      rcases Routine.after?_recovering left with ⟨value, run⟩ | ⟨diagnostic, middle, run, -⟩
      · rw [run]
        exact .append (ih (congrArg Outcome.after? run)) .nil
      · rw [run]
        exact .append (ih (congrArg Outcome.after? run)) (.append .record (.advances _))
  | iterate each ih =>
      exact Routine.roundMoves_balanced (fun left => (each _).leads left)
        (fun left => ih _ left) left

theorem depth_eq {α : Type} {routine : Routine α} (recipe : Recipe routine)
    {parser after : Parser} (left : (routine parser).after? = some after) :
    after.depth = parser.depth := by
  rw [recipe.leads left, (recipe.balanced left).depth_replay]

end Recipe

namespace Call

variable {call : Call} {parser after : Parser}

theorem balanced (left : (call.run parser).after? = some after) :
    Balanced (nestingLimit - parser.depth) (call.moves parser) :=
  (call.recipe _).balanced left

theorem depth_eq (left : (call.run parser).after? = some after) : after.depth = parser.depth :=
  (call.recipe (Routine.levelsRecipes _)).depth_eq left

end Call

namespace Operation

variable {operation : Operation} {parser after : Parser}

/-- No operation opens more levels than may be open. -/
theorem depth_le (performed : operation.apply parser = some after)
    (room : parser.depth ≤ nestingLimit) : after.depth ≤ nestingLimit := by
  cases operation with
  | call asked => exact Nat.le_trans (Nat.le_of_eq (Call.depth_eq performed)) room
  | advance => exact Nat.le_trans (Nat.le_of_eq (Recipe.advance.depth_eq performed)) room
  | expect kind => exact Nat.le_trans (Nat.le_of_eq (Recipe.expect.depth_eq performed)) room
  | skip kind => exact Nat.le_trans (Nat.le_of_eq (Recipe.skip.depth_eq performed)) room
  | enter =>
      have entered : (Routine.enter parser).after? = some after := performed
      unfold Routine.enter at entered
      split at entered
      · cases entered
        exact room
      · rename_i free
        cases entered
        exact Nat.lt_of_not_le free
  | leave =>
      cases performed
      exact Nat.le_trans (Nat.sub_le _ _) room
  | _ =>
      cases performed
      exact room

end Operation

theorem Parser.depth_le_of_perform {operations : List Operation} {parser after : Parser}
    (performed : parser.perform operations = some after) (room : parser.depth ≤ nestingLimit) :
    after.depth ≤ nestingLimit := by
  induction operations generalizing parser with
  | nil =>
      cases performed
      exact room
  | cons operation operations ih =>
      obtain ⟨middle, first, rest⟩ := Option.bind_eq_some_iff.1 performed
      exact ih rest (Operation.depth_le first room)

end Monkey
