import Monkey.Proofs.Parser.Recursion

namespace Monkey

/-! Where expressions and blocks start and end in a run.

What a run comes to is said along the recipe of its routine, with the runs of what went before.
The moves of whatever it comes to are a stretch of its own moves, and start on the parser that it
has then.  And every move that opens or closes a level does so for an expression or a block that
the run comes to there.
-/

/-- A routine together with the steps from which it is made. -/
structure Reading where
  {α : Type}
  {routine : Routine α}
  recipe : Recipe routine

namespace Reading

/-- A run of a reading comes to this one, which is run on `start`. -/
inductive Occurs (inner : Reading) (start : Parser) : Reading → Parser → Prop
  | whole : Occurs inner start inner start
  | first {α β : Type} {routine : Routine α} {next : α → Routine β} {parser : Parser}
      {first : Recipe routine} {later : (value : α) → Recipe (next value)}
      (occurs : Occurs inner start ⟨first⟩ parser) : Occurs inner start ⟨.bind first later⟩ parser
  | later {α β : Type} {routine : Routine α} {next : α → Routine β} {parser middle : Parser}
      {first : Recipe routine} {later : (value : α) → Recipe (next value)} {value : α}
      (run : routine parser = .ok value middle) (occurs : Occurs inner start ⟨later value⟩ middle) :
      Occurs inner start ⟨.bind first later⟩ parser
  | nested {α : Type} {routine : Routine α} {parser : Parser} {inside : Recipe routine}
      (room : parser.depth < nestingLimit)
      (occurs : Occurs inner start ⟨inside⟩ (parser.move .enter)) :
      Occurs inner start ⟨.nested inside⟩ parser
  | recovering {statement : Routine Statement} {parser : Parser} {inside : Recipe statement}
      (occurs : Occurs inner start ⟨inside⟩ parser) : Occurs inner start ⟨.recovering inside⟩ parser
  | round {α β : Type} {round : α → Routine (Round α β)} {value : α} {parser : Parser}
      {each : (value : α) → Recipe (round value)} (occurs : Occurs inner start ⟨each value⟩ parser) :
      Occurs inner start ⟨@Recipe.iterate _ _ round value each⟩ parser
  | again {α β : Type} {round : α → Routine (Round α β)} {value next : α} {parser middle : Parser}
      {each : (value : α) → Recipe (round value)}
      (run : round value parser = .ok (.again next) middle)
      (shorter : middle.pending.length < parser.pending.length)
      (occurs : Occurs inner start ⟨@Recipe.iterate _ _ round next each⟩ middle) :
      Occurs inner start ⟨@Recipe.iterate _ _ round value each⟩ parser

namespace Occurs

variable {inner outer : Reading} {start parser : Parser}

/-- What occurs in a run makes a stretch of its moves. -/
theorem stretch (occurs : Occurs inner start outer parser) :
    ∃ past rest, start = parser.replay past ∧
      outer.recipe.moves parser = past ++ inner.recipe.moves start ++ rest := by
  induction occurs with
  | whole => exact ⟨[], [], rfl, by simp⟩
  | first _ ih =>
      obtain ⟨past, rest, led, moves⟩ := ih
      rw [Recipe.moves, moves, List.append_assoc _ rest]
      exact ⟨past, _, led, rfl⟩
  | @later _ _ _ _ parser _ first _ _ run _ ih =>
      obtain ⟨past, rest, led, moves⟩ := ih
      refine ⟨first.moves parser ++ past, rest, ?_, ?_⟩
      · rw [Parser.replay_append, ← first.leads (congrArg _ run), led]
      · rw [Recipe.moves, run]
        dsimp only
        rw [moves]
        simp only [List.append_assoc]
  | nested room _ ih =>
      obtain ⟨past, rest, led, moves⟩ := ih
      rw [Recipe.moves, if_neg (Nat.not_le_of_lt room), moves, List.append_assoc _ rest]
      exact ⟨.enter :: past, _, led, rfl⟩
  | recovering _ ih =>
      obtain ⟨past, rest, led, moves⟩ := ih
      rw [Recipe.moves, moves, List.append_assoc _ rest]
      exact ⟨past, _, led, rfl⟩
  | round _ ih =>
      obtain ⟨past, rest, led, moves⟩ := ih
      rw [Recipe.moves, Routine.roundMoves, moves, List.append_assoc _ rest]
      exact ⟨past, _, led, rfl⟩
  | @again _ _ _ value _ parser _ each run shorter _ ih =>
      obtain ⟨past, rest, led, moves⟩ := ih
      refine ⟨(each value).moves parser ++ past, rest, ?_, ?_⟩
      · rw [Parser.replay_append, ← (each value).leads (congrArg _ run), led]
      · rw [Recipe.moves, Routine.roundMoves, run]
        dsimp only
        rw [dif_pos shorter]
        rw [Recipe.moves] at moves
        rw [moves]
        simp only [List.append_assoc]

/-- What occurs in a run that comes to an end does so itself. -/
theorem finite (occurs : Occurs inner start outer parser)
    (finite : ∃ after, (outer.routine parser).after? = some after) :
    ∃ after, (inner.routine start).after? = some after := by
  induction occurs with
  | whole => exact finite
  | first _ ih =>
      obtain ⟨after, left⟩ := finite
      rcases Routine.after?_bind left with ⟨value, middle, run, -⟩ | ⟨diagnostic, run⟩
      · exact ih ⟨middle, congrArg _ run⟩
      · exact ih ⟨after, congrArg _ run⟩
  | @later _ _ routine next parser _ _ _ _ run _ ih =>
      obtain ⟨after, left⟩ := finite
      have both : ((routine >>= next) parser).after? = some after := left
      rw [Routine.bind_eq run] at both
      exact ih ⟨after, both⟩
  | nested room _ ih =>
      obtain ⟨after, left⟩ := finite
      rw [Routine.after?_nested, if_neg (Nat.not_le_of_lt room)] at left
      obtain ⟨middle, run, -⟩ := Option.map_eq_some_iff.1 left
      exact ih ⟨middle, run⟩
  | recovering _ ih =>
      obtain ⟨after, left⟩ := finite
      rcases Routine.after?_recovering left with ⟨value, run⟩ | ⟨diagnostic, middle, run, -⟩
      · exact ih ⟨after, congrArg _ run⟩
      · exact ih ⟨middle, congrArg _ run⟩
  | round _ ih =>
      obtain ⟨after, left⟩ := finite
      rcases Routine.after?_iterate left with ⟨result, run⟩ | ⟨next, middle, run, -⟩ |
        ⟨diagnostic, run⟩
      · exact ih ⟨after, congrArg _ run⟩
      · exact ih ⟨middle, congrArg _ run⟩
      · exact ih ⟨after, congrArg _ run⟩
  | @again _ _ round value _ parser _ _ run shorter _ ih =>
      obtain ⟨after, left⟩ := finite
      have all : (Routine.iterate round value parser).after? = some after := left
      rw [Routine.iterate_again run shorter] at all
      exact ih ⟨after, all⟩

end Occurs

end Reading

/-- The last of the moves opens or closes a level. -/
def EndsAtLevel (moves : List Move) : Prop :=
  moves.getLast? = some .enter ∨ moves.getLast? = some .leave

namespace EndsAtLevel

variable {moves first second plain : List Move}

theorem not_prefix (ends : EndsAtLevel moves) (flat : .enter ∉ plain ∧ .leave ∉ plain) :
    ¬ moves <+: plain := by
  intro part
  rcases ends with last | last
  · exact flat.1 (part.subset (List.mem_of_getLast? last))
  · exact flat.2 (part.subset (List.mem_of_getLast? last))

/-- Such moves of a run end in its first part or in its second one. -/
theorem split (ends : EndsAtLevel moves) (part : moves <+: first ++ second) :
    moves <+: first ∨ ∃ late, moves = first ++ late ∧ EndsAtLevel late ∧ late <+: second := by
  rcases List.prefix_or_prefix_of_prefix part (List.prefix_append first second) with
    early | ⟨late, rfl⟩
  · exact .inl early
  · by_cases nothing : late = []
    · rw [nothing, List.append_nil]
      exact .inl (List.prefix_refl first)
    · refine .inr ⟨late, rfl, ?_, (List.prefix_append_right_inj first).1 part⟩
      rwa [EndsAtLevel, List.getLast?_append, List.getLast?_eq_some_getLast nothing,
        Option.some_or, ← List.getLast?_eq_some_getLast nothing] at ends

end EndsAtLevel

namespace Reading

/-- The moves go on to where something starts that occurs in the run and opens a level, or to where
that ends. -/
def Marks (outer : Reading) (parser : Parser) (moves : List Move) : Prop :=
  ∃ (α : Type) (body : Routine α) (inside : Recipe body) (before : List Move),
    Occurs ⟨.nested inside⟩ (parser.replay before) outer parser ∧
    (parser.replay before).depth < nestingLimit ∧
    (moves = before ++ [.enter] ∨
      moves = before ++ (Recipe.nested inside).moves (parser.replay before))

variable {outer small : Reading} {parser middle : Parser} {moves : List Move}

/-- A part of a run comes after other moves, and to nothing that the whole run does not come to. -/
theorem Marks.later (prior : List Move) (marks : small.Marks middle moves)
    (led : middle = parser.replay prior)
    (carries : ∀ {inner : Reading} {start : Parser}, Occurs inner start small middle →
      Occurs inner start outer parser) : outer.Marks parser (prior ++ moves) := by
  obtain ⟨α, body, inside, before, occurs, room, shape⟩ := marks
  have after : middle.replay before = parser.replay (prior ++ before) := by
    rw [Parser.replay_append, led]
  rw [after] at occurs room shape
  refine ⟨α, body, inside, prior ++ before, carries occurs, room, ?_⟩
  rcases shape with rfl | rfl
  · exact .inl (List.append_assoc ..).symm
  · exact .inr (List.append_assoc ..).symm

end Reading

open Reading

theorem Recipe.nested_moves {α : Type} {routine : Routine α} {inside : Recipe routine}
    {parser after : Parser} (room : parser.depth < nestingLimit)
    (left : (Routine.nested routine parser).after? = some after) :
    (Recipe.nested inside).moves parser =
      .enter :: (inside.moves (parser.move .enter) ++ [.leave]) := by
  have free := Nat.not_le_of_lt room
  rw [Routine.after?_nested, if_neg free] at left
  obtain ⟨middle, run, -⟩ := Option.map_eq_some_iff.1 left
  rw [Recipe.moves, if_neg free, run]

theorem Routine.roundMoves_marks {α β : Type} {round : α → Routine (Round α β)}
    {each : (value : α) → Recipe (round value)}
    (step : ∀ (value : α) {parser after : Parser} {moves : List Move},
      (round value parser).after? = some after → EndsAtLevel moves →
        moves <+: (each value).moves parser → Reading.Marks ⟨each value⟩ parser moves)
    {value : α} {parser after : Parser} {moves : List Move}
    (left : (iterate round value parser).after? = some after) (ends : EndsAtLevel moves)
    (part : moves <+: roundMoves round (fun value => (each value).moves) value parser) :
    Reading.Marks ⟨@Recipe.iterate _ _ round value each⟩ parser moves := by
  fun_induction roundMoves round (fun value => (each value).moves) value parser
    generalizing moves with
  | case1 value parser ih =>
      have early : ∀ {middle : Parser}, (round value parser).after? = some middle →
          moves <+: (each value).moves parser →
          Reading.Marks ⟨@Recipe.iterate _ _ round value each⟩ parser moves :=
        fun run inside => (step value run ends inside).later [] rfl .round
      rcases after?_iterate left with
        ⟨result, run⟩ | ⟨next, middle, run, consumed, rest⟩ | ⟨diagnostic, run⟩
      · rw [run, List.append_nil] at part
        exact early (congrArg _ run) part
      · rw [run] at part
        dsimp only at part
        rw [dif_pos consumed] at part
        rcases ends.split part with inside | ⟨late, rfl, lateEnds, latePart⟩
        · exact early (congrArg _ run) inside
        · exact (ih next middle consumed rest lateEnds latePart).later _
            ((each value).leads (congrArg _ run)) (.again run consumed)
      · rw [run, List.append_nil] at part
        exact early (congrArg _ run) part

/-- Every move of a run that opens or closes a level does so for something that occurs in it. -/
theorem Recipe.marks {α : Type} {routine : Routine α} (recipe : Recipe routine)
    {parser after : Parser} {moves : List Move} (left : (routine parser).after? = some after)
    (ends : EndsAtLevel moves) (part : moves <+: recipe.moves parser) :
    Reading.Marks ⟨recipe⟩ parser moves := by
  induction recipe generalizing parser after moves with
  | pure => exact absurd part (ends.not_prefix (by simp [Recipe.moves]))
  | state => exact absurd part (ends.not_prefix (by simp [Recipe.moves]))
  | fail => exact absurd part (ends.not_prefix (by simp [Recipe.moves]))
  | advance => exact absurd part (ends.not_prefix (by simp [Recipe.moves]))
  | expect =>
      refine absurd part (ends.not_prefix ?_)
      rw [Recipe.moves]
      split <;> simp
  | skip =>
      refine absurd part (ends.not_prefix ?_)
      rw [Recipe.moves]
      split <;> simp
  | atom => exact absurd part (ends.not_prefix (by simp [Recipe.moves]))
  | bind first later firstMarks laterMarks =>
      rw [Recipe.moves] at part
      rcases Routine.after?_bind left with ⟨value, middle, run, rest⟩ | ⟨diagnostic, run⟩
      · rw [run] at part
        rcases ends.split part with inside | ⟨late, rfl, lateEnds, latePart⟩
        · exact (firstMarks (congrArg _ run) ends inside).later [] rfl .first
        · exact (laterMarks value rest lateEnds latePart).later _
            (first.leads (congrArg _ run)) (.later run)
      · rw [run, List.append_nil] at part
        exact (firstMarks (congrArg _ run) ends part).later [] rfl .first
  | @nested _ routine inside ih =>
      rcases Nat.lt_or_ge parser.depth nestingLimit with room | full
      · have whole : (Recipe.nested inside).moves parser = [] ++ [.enter] ++ _ :=
          Recipe.nested_moves room left
        rw [Routine.after?_nested, if_neg (Nat.not_le_of_lt room)] at left
        obtain ⟨middle, run, -⟩ := Option.map_eq_some_iff.1 left
        rw [whole] at part
        rcases ends.split part with opening | ⟨late, rfl, lateEnds, latePart⟩
        · rcases List.prefix_concat_iff.1 opening with rfl | nothing
          · exact ⟨_, _, inside, [], .whole, room, .inl rfl⟩
          · exact absurd nothing (ends.not_prefix (by simp))
        · rcases List.prefix_concat_iff.1 latePart with rfl | within
          · exact ⟨_, _, inside, [], .whole, room, .inr whole.symm⟩
          · exact (ih run lateEnds within).later [.enter] rfl (.nested room)
      · rw [Recipe.moves, if_pos full] at part
        exact absurd part (ends.not_prefix (by simp))
  | recovering inside ih =>
      rw [Recipe.moves] at part
      rcases Routine.after?_recovering left with ⟨value, run⟩ | ⟨diagnostic, middle, run, -⟩
      · rw [run, List.append_nil] at part
        exact (ih (congrArg _ run) ends part).later [] rfl .recovering
      · rw [run] at part
        rcases ends.split part with early | ⟨late, rfl, lateEnds, latePart⟩
        · exact (ih (congrArg _ run) ends early).later [] rfl .recovering
        · refine absurd latePart (lateEnds.not_prefix ?_)
          simp
  | iterate each ih => exact Routine.roundMoves_marks ih left ends part

namespace Call

/-- The routine of a call with so many levels left. -/
def reading (call : Call) (count : Nat) : Reading :=
  ⟨call.recipe (Routine.levelsRecipes count)⟩

/-- Expressions and blocks open a level, and nothing else does so itself. -/
inductive OpensLevel : Call → Prop
  | expression (power : Power) : OpensLevel (.expression power)
  | block : OpensLevel .block

end Call

/-- Every level that is opened is that of an expression or a block, with as many levels left as
there are at that place. -/
def Recipe.Levelled : {α : Type} → {routine : Routine α} → Recipe routine → (count : Nat) → Prop
  | _, _, .bind first later, count => first.Levelled count ∧ ∀ value, (later value).Levelled count
  | _, _, .nested inside, count =>
      ∃ fewer, count = fewer + 1 ∧ inside.Levelled fewer ∧
        ∃ call : Call, call.OpensLevel ∧ (⟨.nested inside⟩ : Reading) = call.reading count
  | _, _, .recovering inside, count => inside.Levelled count
  | _, _, .iterate each, count => ∀ value, (each value).Levelled count
  | _, _, _, _ => True

structure Nested.Recipes.Levelled {inner : Nested} (recipes : inner.Recipes) (count : Nat) : Prop where
  expression : ∀ power, (recipes.expression power).Levelled count
  block : recipes.block.Levelled count

namespace Routine

open Recipe (Levelled)

variable {inner : Nested} {recipes : inner.Recipes} {count : Nat}

theorem either_levelled {α : Type} {condition : Prop} [Decidable condition] {yes no : Routine α}
    {yesRecipe : Recipe yes} {noRecipe : Recipe no} (accepted : yesRecipe.Levelled count)
    (refused : noRecipe.Levelled count) :
    (Recipe.either yesRecipe noRecipe : Recipe (if condition then yes else no)).Levelled count := by
  unfold Recipe.either
  split
  · exact accepted
  · exact refused

theorem enclosed_levelled {α : Type} {item : Routine α} {recipe : Recipe item}
    (levelled : recipe.Levelled count) : (enclosedRecipe recipe).Levelled count := by
  have separated : (separatedRecipe recipe).Levelled count :=
    fun _ => ⟨levelled, fun _ => ⟨trivial, fun _ => either_levelled trivial trivial⟩⟩
  exact ⟨trivial, fun _ => either_levelled trivial
    ⟨separated, fun _ => ⟨trivial, fun _ => trivial⟩⟩⟩

theorem prefixForm_levelled (levelled : recipes.Levelled count) (form : PrefixForm) :
    (prefixRecipe recipes form).Levelled count := by
  cases form with
  | atom => trivial
  | unary => exact ⟨trivial, fun _ => ⟨levelled.expression _, fun _ => trivial⟩⟩
  | group =>
      exact ⟨trivial, fun _ => ⟨levelled.expression _, fun _ => ⟨trivial, fun _ => trivial⟩⟩⟩
  | conditional =>
      refine ⟨trivial, fun _ => ⟨trivial, fun _ => ⟨levelled.expression _, fun _ =>
        ⟨trivial, fun _ => ⟨levelled.block, fun _ => ⟨trivial, fun _ => ?_⟩⟩⟩⟩⟩⟩
      exact either_levelled ⟨levelled.block, fun _ => trivial⟩ trivial
  | function =>
      exact ⟨trivial, fun _ => ⟨trivial, fun _ => ⟨enclosed_levelled ⟨trivial, fun _ => trivial⟩,
        fun _ => ⟨levelled.block, fun _ => trivial⟩⟩⟩⟩

theorem infixForm_levelled {left : Expr} {power : Power} (levelled : recipes.Levelled count)
    (form : InfixForm) :
    (infixRecipe recipes form : Recipe (form.read inner left power)).Levelled count := by
  cases form with
  | binary => exact ⟨trivial, fun _ => ⟨levelled.expression _, fun _ => trivial⟩⟩
  | call =>
      exact ⟨trivial, fun _ => ⟨enclosed_levelled (levelled.expression _), fun _ => trivial⟩⟩

theorem expressionBody_levelled {power : Power} (levelled : recipes.Levelled count) :
    (expressionBodyRecipe recipes : Recipe (expressionBody inner power)).Levelled count := by
  refine ⟨⟨trivial, fun parser => ?leading⟩, fun first left => ⟨trivial, fun parser => ?continued⟩⟩
  case leading =>
    dsimp only
    cases parser.table.prefixForm parser.current.kind with
    | none => trivial
    | some form => exact prefixForm_levelled levelled form
  case continued =>
    dsimp only
    cases parser.table.infixRule parser.current.kind with
    | none => trivial
    | some rule =>
        exact either_levelled ⟨infixForm_levelled levelled rule.form, fun _ => trivial⟩ trivial

theorem ending_levelled (levelled : recipes.Levelled count) :
    (endingRecipe recipes).Levelled count :=
  ⟨levelled.expression _, fun _ => ⟨trivial, fun _ => trivial⟩⟩

theorem statementForm_levelled (levelled : recipes.Levelled count) (form : StatementForm) :
    (statementRecipe recipes form).Levelled count := by
  have ending := ending_levelled levelled
  cases form with
  | binding =>
      exact ⟨trivial, fun _ => ⟨⟨trivial, fun _ => trivial⟩, fun _ => ⟨trivial, fun _ =>
        ⟨ending, fun _ => trivial⟩⟩⟩⟩
  | result => exact ⟨trivial, fun _ => ⟨ending, fun _ => trivial⟩⟩
  | expression => exact ⟨trivial, fun _ => ⟨ending, fun _ => trivial⟩⟩

theorem statementBody_levelled (levelled : recipes.Levelled count) :
    (statementBodyRecipe recipes).Levelled count := by
  refine ⟨trivial, fun parser => ?_⟩
  dsimp only
  cases parser.table.statementForm parser.current.kind with
  | none => exact statementForm_levelled levelled .expression
  | some form => exact statementForm_levelled levelled form

theorem statementsUntil_levelled {ends : Kind → Bool} (levelled : recipes.Levelled count) :
    (statementsUntilRecipe (statementBodyRecipe recipes) :
      Recipe (statementsUntil ends (statementBody inner))).Levelled count := by
  refine fun statements => ⟨trivial, fun parser => ?_⟩
  refine either_levelled trivial ⟨statementBody_levelled levelled, fun statement => ?_⟩
  cases statement <;> trivial

theorem blockBody_levelled (levelled : recipes.Levelled count) :
    (blockBodyRecipe recipes).Levelled count :=
  ⟨trivial, fun _ => ⟨statementsUntil_levelled levelled, fun _ => ⟨trivial, fun _ => trivial⟩⟩⟩

theorem levels_levelled (count : Nat) : (levelsRecipes count).Levelled count := by
  induction count with
  | zero => exact ⟨fun _ => trivial, trivial⟩
  | succ count ih =>
      exact ⟨fun power => ⟨count, rfl, expressionBody_levelled ih, _, .expression power, rfl⟩,
        ⟨count, rfl, blockBody_levelled ih, _, .block, rfl⟩⟩

end Routine

theorem Call.levelled (call : Call) (count : Nat) : (call.reading count).recipe.Levelled count := by
  have levels := Routine.levels_levelled count
  cases call with
  | expression power => exact levels.expression power
  | prefixForm form => exact Routine.prefixForm_levelled levels form
  | infixForm form left power => exact Routine.infixForm_levelled levels form
  | block => exact levels.block
  | statement => exact Routine.statementBody_levelled levels
  | statementForm form => exact Routine.statementForm_levelled levels form
  | statementOrSkip => exact Routine.statementBody_levelled levels
  | program => exact ⟨Routine.statementsUntil_levelled levels, fun _ => trivial⟩

/-- There are as many levels left for what occurs in a run as its place leaves. -/
theorem Reading.Occurs.levelled {inner outer : Reading} {start parser : Parser}
    (occurs : Occurs inner start outer parser)
    (levelled : outer.recipe.Levelled (nestingLimit - parser.depth)) :
    inner.recipe.Levelled (nestingLimit - start.depth) := by
  induction occurs with
  | whole => exact levelled
  | first _ ih => exact ih levelled.1
  | @later _ _ _ _ _ _ first _ value run _ ih =>
      rw [← first.depth_eq (congrArg _ run)] at levelled
      exact ih (levelled.2 value)
  | @nested _ _ parser _ room _ ih =>
      obtain ⟨fewer, count, inside, _⟩ := levelled
      obtain rfl : fewer = nestingLimit - (parser.depth + 1) := by omega
      exact ih inside
  | recovering _ ih => exact ih levelled
  | round _ ih => exact ih (levelled _)
  | @again _ _ _ value _ _ _ each run _ _ ih =>
      rw [← (each value).depth_eq (congrArg _ run)] at levelled
      exact ih levelled

namespace Call

/-- On the way of a call, an expression or a block starts on this parser and opens its level. -/
structure Starts (call : Call) (parser : Parser) (inner : Call) (start : Parser) : Prop where
  opens : inner.OpensLevel
  room : start.depth < nestingLimit
  occurs : (inner.reading (nestingLimit - start.depth)).Occurs start
    (call.reading (nestingLimit - parser.depth)) parser

/-- The moves of a call open and close a level exactly where an expression or a block that the call
comes to starts and ends. -/
structure MarksLevels (call : Call) (parser : Parser) : Prop where
  opened {past : List Move} (opens : past ++ [.enter] <+: call.moves parser) :
    ∃ inner, call.Starts parser inner (parser.replay past)
  closed {past : List Move} (closes : past ++ [.leave] <+: call.moves parser) :
    ∃ inner before, call.Starts parser inner (parser.replay before) ∧
      past ++ [.leave] = before ++ inner.moves (parser.replay before)
  started {inner : Call} {start : Parser} (starts : call.Starts parser inner start) :
    ∃ past inside rest, start = parser.replay past ∧
      inner.moves start = .enter :: (inside ++ [.leave]) ∧
      call.moves parser = past ++ inner.moves start ++ rest ∧
      (inner.run start).after? = some (parser.replay (past ++ inner.moves start))

variable {call inner : Call} {parser start after : Parser}

theorem OpensLevel.moves_eq (opens : inner.OpensLevel) (room : start.depth < nestingLimit)
    (left : (inner.run start).after? = some after) :
    ∃ inside, inner.moves start = .enter :: (inside ++ [.leave]) := by
  have next : nestingLimit - start.depth = nestingLimit - (start.depth + 1) + 1 := by omega
  rw [moves]
  rw [run, Routine.withLevels] at left
  rw [next] at left ⊢
  cases opens with
  | expression power => exact ⟨_, Recipe.nested_moves room left⟩
  | block => exact ⟨_, Recipe.nested_moves room left⟩

theorem Starts.finite (starts : call.Starts parser inner start)
    (left : (call.run parser).after? = some after) :
    ∃ after, (inner.run start).after? = some after :=
  starts.occurs.finite ⟨after, left⟩

theorem starts_of_marks {moves : List Move}
    (marks : (call.reading (nestingLimit - parser.depth)).Marks parser moves) :
    ∃ inner before, call.Starts parser inner (parser.replay before) ∧
      (moves = before ++ [.enter] ∨ moves = before ++ inner.moves (parser.replay before)) := by
  obtain ⟨α, body, inside, before, occurs, room, shape⟩ := marks
  obtain ⟨fewer, count, _, inner, opens, same⟩ := occurs.levelled (call.levelled _)
  have whole : (Recipe.nested inside).moves (parser.replay before) =
      inner.moves (parser.replay before) :=
    congrArg (fun reading : Reading => reading.recipe.moves (parser.replay before)) same
  rw [same] at occurs
  rw [whole] at shape
  exact ⟨inner, before, ⟨opens, room, occurs⟩, shape⟩

theorem marksLevels (left : (call.run parser).after? = some after) : call.MarksLevels parser where
  opened {past} opens := by
    have marks := (call.recipe _).marks left (.inl List.getLast?_concat) opens
    obtain ⟨inner, before, starts, same | same⟩ := starts_of_marks marks
    · rw [List.append_cancel_right same]
      exact ⟨inner, starts⟩
    · obtain ⟨_, finite⟩ := starts.finite left
      obtain ⟨inside, moves⟩ := starts.opens.moves_eq starts.room finite
      have last := congrArg List.getLast? same
      rw [moves, ← List.cons_append, ← List.append_assoc, List.getLast?_concat,
        List.getLast?_concat] at last
      cases last
  closed {past} closes := by
    have marks := (call.recipe _).marks left (.inr List.getLast?_concat) closes
    obtain ⟨inner, before, starts, same | same⟩ := starts_of_marks marks
    · have last := congrArg List.getLast? same
      rw [List.getLast?_concat, List.getLast?_concat] at last
      cases last
    · exact ⟨inner, before, starts, same⟩
  started {inner start} starts := by
    obtain ⟨after, finite⟩ := starts.finite left
    obtain ⟨inside, moves⟩ := starts.opens.moves_eq starts.room finite
    obtain ⟨past, rest, led, whole⟩ := starts.occurs.stretch
    refine ⟨past, inside, rest, led, moves, whole, ?_⟩
    rw [finite, Parser.replay_append, ← led, leads finite]

end Call

/-- Whatever a parser is asked to read, and however that ends, it leaves as many levels open
as it found.  At every moment on the way the depth counts what was open before and what was
opened and not closed since; so no level is closed that is not open.  These moments are those at
which the expressions and blocks inside start and end, each with a run of its own, and what the
call asks for itself starts at the depth of the call.  No sequence of operations opens more levels
than may be open. -/
theorem run_levels (call : Call) (parser : Parser) (room : parser.depth ≤ nestingLimit) :
    (parser.Standard → call.run parser ≠ .endless) ∧
    (∀ after, (call.run parser).after? = some after →
      after.depth = parser.depth ∧ parser.replay (call.moves parser) = after ∧
      (∀ past, past <+: call.moves parser →
        (parser.replay past).depth + past.count .leave = parser.depth + past.count .enter ∧
        past.count .leave ≤ past.count .enter ∧
        past.count .enter - past.count .leave ≤ nestingLimit - parser.depth ∧
        (past ++ [.leave] <+: call.moves parser → 0 < (parser.replay past).depth)) ∧
      call.MarksLevels parser) ∧
    (∀ inner : Nested, inner.LanguageAt parser.depth →
      call.body inner parser = call.run parser) ∧
    (∀ operations after, parser.perform operations = some after → after.depth ≤ nestingLimit) := by
  refine ⟨fun standard => (call.run_ends standard).ne_endless, ?_, ?_, ?_⟩
  · intro after left
    have balanced := Call.balanced left
    refine ⟨Call.depth_eq left, (Call.leads left).symm, ?_, Call.marksLevels left⟩
    intro past part
    have depth := balanced.depth_of_part parser part
    obtain ⟨opened, bounded⟩ := balanced.part part
    refine ⟨depth, opened, by omega, ?_⟩
    intro closing
    -- The level that is closed next is among those that are open.
    have next := (balanced.part closing).1
    rw [List.count_append, List.count_append, List.count_singleton_self, List.count_singleton,
      if_neg (by decide)] at next
    omega
  · intro inner like
    exact Call.body_eq like call
  · intro operations after performed
    exact Parser.depth_le_of_perform performed room

/-- With one level left the parentheses are read, and what is in them is refused. -/
theorem run_levels_refused :
    ∃ after, ((Call.expression .lowest).run
        { Parser.ofSource "(x)" none with depth := 127 }).after? = some after ∧
      after.depth = 127 ∧
      (({ Parser.ofSource "(x)" none with depth := 127 } : Parser).replay
        [.enter, .advance]).depth = 128 ∧
      ∃ inner, (Call.expression .lowest).Starts
        { Parser.ofSource "(x)" none with depth := 127 } inner
        { Parser.ofSource "(x)" none with depth := 127 } := by
  have standard := Parser.ofSource_standard "(x)" none
  have moves : (Call.expression .lowest).moves { Parser.ofSource "(x)" none with depth := 127 } =
      [.enter, .advance, .leave] := by decide +kernel
  obtain ⟨ends, levels, _⟩ := run_levels (.expression .lowest)
    { Parser.ofSource "(x)" none with depth := 127 } (by decide)
  obtain ⟨after, left⟩ :=
    Outcome.exists_after (ends ⟨standard.table, standard.finish, standard.pending⟩)
  obtain ⟨depth, _, moments, marks⟩ := levels after left
  have inside : [.enter, .advance] <+:
      (Call.expression .lowest).moves { Parser.ofSource "(x)" none with depth := 127 } :=
    ⟨[.leave], moves.symm⟩
  have opens : [] ++ [.enter] <+:
      (Call.expression .lowest).moves { Parser.ofSource "(x)" none with depth := 127 } :=
    ⟨[.advance, .leave], moves.symm⟩
  exact ⟨after, left, depth, (moments _ inside).1, marks.opened opens⟩

end Monkey
