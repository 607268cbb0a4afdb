import Monkey.Proofs.Parser.Closing
import Monkey.Proofs.Parser.Layout

namespace Monkey

/-! Statements in braces are read like a program.

If nothing is wrong at a closing brace or at the end of input, every round of one loop is a round
of the other one, and the brace that ends the block stands where the program ends.
-/

namespace Parser

variable {parser : Parser} {count : Nat} {first second found others : List Diagnostic}

/-- Nothing is found wrong at a closing brace or at the end of input. -/
def Clears (parser : Parser) (found : List Diagnostic) : Prop :=
  ∀ diagnostic ∈ found, ∀ index, (parser.token index).kind ∈ [.closeCurly, .endOfInput] →
    diagnostic.position ≠ (parser.token index).span.start

theorem Clears.append_iff :
    parser.Clears (first ++ second) ↔ parser.Clears first ∧ parser.Clears second :=
  List.forall_mem_append

theorem Clears.beyond (clears : parser.Clears found) :
    (parser.beyond count others).Clears found := by
  intro diagnostic member index ends
  rw [token_beyond] at ends ⊢
  exact clears diagnostic member _ ends

end Parser

namespace Routine

open Outcome

variable {parser other : Parser} {count : Nat} {statements : Array Statement}

def endsBlock (kind : Kind) : Bool :=
  kind = .closeCurly || kind = .endOfInput

/-- Where no expression begins, there is none at any depth. -/
theorem levels_expression_fails {power : Power}
    (absent : parser.table.prefixForm parser.current.kind = none) :
    ∃ cause, (levels count).expression power parser = fail cause parser := by
  cases count with
  | zero => exact ⟨_, rfl⟩
  | succ count =>
      by_cases room : parser.depth < nestingLimit
      · refine ⟨.noExpression parser.current.kind parser.current.text, ?_⟩
        have missing : leading (levels count) { parser with depth := parser.depth + 1 } =
            fail (.noExpression parser.current.kind parser.current.text)
              { parser with depth := parser.depth + 1 } := by
          rw [leading_apply]
          simp only [Parser.current] at absent ⊢
          rw [absent]
        refine (nested_apply room).trans ?_
        exact congrArg (mapAfter Parser.leave) (bind_failed missing)
      · exact ⟨_, nested_refused (Nat.le_of_not_lt room)⟩

theorem statementBody_fails (standard : parser.Standard)
    (closes : parser.current.kind = .closeCurly) :
    ∃ cause, statementBody (levels count) parser = fail cause parser := by
  have absent : parser.table.prefixForm parser.current.kind = none := by
    rw [standard.table, closes]
    rfl
  obtain ⟨cause, failed⟩ := @levels_expression_fails parser count .lowest absent
  refine ⟨cause, ?_⟩
  rw [statementBody_apply, standard.table, closes]
  show expressionStatement (levels count) parser = _
  rw [expressionStatement_apply]
  exact bind_failed (bind_failed failed)

/-- A statement is kept or skipped alike, and does not begin with a closing brace. -/
theorem recovering_braced (braces : parser.Braces other 0) (standard : parser.Standard)
    (otherStandard : other.Standard) :
    (recovering (statementBody (levels count)) parser).Meets parser
      (.onSuccess fun result consumed found => parser.Clears found →
        parser.current.kind ≠ .closeCurly ∧
        recovering (statementBody (levels count)) other =
          .ok result (other.beyond consumed found)) := by
  by_cases closes : parser.current.kind = .closeCurly
  · obtain ⟨cause, failed⟩ := @statementBody_fails parser count standard closes
    have here : statementBody (levels count) parser =
        .failed ⟨cause, parser.position⟩ (parser.beyond 0 []) := by
      rw [Parser.beyond_zero]
      exact failed
    rw [recovering_failed here]
    apply Meets.ok
    intro clears
    have place := clears _ List.mem_cons_self 0 (by simp [Parser.token_zero, closes])
    exact absurd rfl place
  · apply ((statementBody_proper (levels_proper count) standard).and
      (Braced.statementBody (levels_proper count) (Braced.levels count) parser other standard
        otherStandard)).recovering
    · intro statement consumed found kept clears
      obtain ⟨⟨inside, _⟩, same⟩ := kept
      refine ⟨closes, ?_⟩
      rw [recovering, same ⟨braces.agrees, braces.closes, inside⟩]
    · intro diagnostic stop found kept clears
      obtain ⟨⟨inside, marks⟩, same⟩ := kept
      refine ⟨closes, ?_⟩
      -- A failure at the end would be found wrong there.
      have present : (parser.token stop).kind ≠ .endOfInput := by
        intro ends
        exact clears diagnostic (by simp) stop (by simp [ends]) marks.position
      have within : parser.Braces other (stop + 1) :=
        ⟨braces.agrees, braces.closes, standard.lt_length present⟩
      rw [recovering_failed (same within), within.resumed standard otherStandard]
    · intro _
      trivial

theorem statementsRound_ok {ends : Kind → Bool} {statement : Routine Statement}
    {result : Option Statement} {after : Parser} (goesOn : ends parser.current.kind = false)
    (run : recovering statement parser = .ok result after) :
    statementsRound ends statement statements parser =
      .ok (.again (result.elim statements statements.push)) after := by
  rw [statementsRound, if_neg (by simp [goesOn]), bind_eq run]
  cases result <;> rfl

/-- A round of a program is a round of the block, too. -/
theorem statementsRound_braced (braces : parser.Braces other 0) (standard : parser.Standard)
    (otherStandard : other.Standard) (present : parser.current.kind ≠ .endOfInput) :
    ∃ next consumed found,
      statementsRound (· = .endOfInput) (statementBody (levels count)) statements parser =
        .ok (.again next) (parser.beyond consumed found) ∧
      parser.taken consumed ≠ [] ∧ consumed ≤ parser.pending.length ∧
      (parser.Clears found →
        statementsRound endsBlock (statementBody (levels count)) statements other =
          .ok (.again next) (other.beyond consumed found)) := by
  have met := (recovering_certain standard present
    (statementBody_proper (levels_proper count) standard)).and
      (recovering_braced braces standard otherStandard)
  obtain ⟨result, consumed, found, run, ⟨inside, nonempty⟩, kept⟩ :=
    met.succeeds (fun _ _ _ impossible => impossible.1) (fun impossible => impossible.1)
  refine ⟨_, consumed, found, statementsRound_ok (decide_eq_false present) run, nonempty, inside,
    ?_⟩
  intro clears
  obtain ⟨plain, same⟩ := kept clears
  have goesOn : endsBlock other.current.kind = false := by
    rw [braces.current_eq standard present]
    simp [endsBlock, plain, present]
  exact statementsRound_ok goesOn same

/-- The loop of a program comes to the end of input, and that of the block to the brace. -/
theorem statements_braced (braces : parser.Braces other 0) (standard : parser.Standard)
    (otherStandard : other.Standard) :
    ∃ read found,
      iterate (statementsRound (· = .endOfInput) (statementBody (levels count))) statements parser =
        .ok read (parser.beyond parser.pending.length found) ∧
      (parser.Clears found →
        iterate (statementsRound endsBlock (statementBody (levels count))) statements other =
          .ok read (other.beyond parser.pending.length found)) := by
  induction left : parser.pending.length using Nat.strongRecOn
    generalizing parser other statements with
  | ind left ih =>
      subst left
      by_cases ends : parser.current.kind = .endOfInput
      · have finished : parser.pending.length = 0 := by
          apply Nat.eq_zero_of_not_pos
          intro some
          exact standard.kind_ne_endOfInput some ends
        have closes : other.current.kind = .closeCurly := by
          have brace := braces.closes
          rwa [finished] at brace
        rw [finished]
        refine ⟨statements.toList, [], ?_, ?_⟩
        · rw [Parser.beyond_zero]
          exact iterate_done (by rw [statementsRound, if_pos (decide_eq_true ends)])
        · intro _
          rw [Parser.beyond_zero]
          exact iterate_done (by rw [statementsRound, if_pos (by rw [closes]; rfl)])
      · obtain ⟨next, consumed, found, run, nonempty, inside, same⟩ :=
          @statementsRound_braced parser other count statements braces standard otherStandard ends
        have positive := List.length_pos_iff.2 nonempty
        rw [Parser.taken, List.length_take] at positive
        have fewer : (parser.beyond consumed found).pending.length < parser.pending.length := by
          rw [Parser.beyond_pending, List.length_drop]
          omega
        have rest : (parser.beyond consumed found).Braces (other.beyond consumed found) 0 :=
          Parser.Braces.beyond ⟨braces.agrees, braces.closes, inside⟩ (Nat.le_refl consumed)
        have first : parser.Agrees other 1 := braces.agrees.mono (by omega)
        have otherFewer : (other.beyond consumed found).pending.length < other.pending.length :=
          first.shorter standard otherStandard nonempty
        obtain ⟨read, others, later, otherLater⟩ :=
          ih _ fewer rest standard.beyond otherStandard.beyond rfl
        have whole : consumed + (parser.beyond consumed found).pending.length =
            parser.pending.length := by
          rw [Parser.beyond_pending, List.length_drop]
          omega
        rw [Parser.beyond_beyond, whole] at later otherLater
        refine ⟨read, found ++ others, (iterate_again run fewer).trans later, ?_⟩
        intro clears
        obtain ⟨before, after⟩ := Parser.Clears.append_iff.1 clears
        exact (iterate_again (same before) otherFewer).trans (otherLater after.beyond)

theorem programBody_eq {inner : Nested} {read : List Statement} {after : Parser}
    (run : iterate (statementsRound (· = .endOfInput) (statementBody inner)) #[] parser =
      .ok read after) : programBody inner parser = .ok ⟨read⟩ after := by
  rw [← statementsUntil_eq] at run
  exact bind_eq run

/-- A block is read if its statements are, and a closing brace comes after them. -/
theorem blockBody_eq {inner : Nested} {read : List Statement} {length : Nat}
    {found : List Diagnostic} (opens : parser.current.kind = .openCurly)
    (run : iterate (statementsRound endsBlock (statementBody inner)) #[] (parser.beyond 1 []) =
      .ok read ((parser.beyond 1 []).beyond length found))
    (closes : (parser.token (length + 1)).kind = .closeCurly) :
    blockBody inner parser = .ok (.mk parser.current read) (parser.beyond (length + 2) found) := by
  have brace : ((parser.beyond 1 []).beyond length found).current.kind = .closeCurly := by
    rw [Parser.beyond_beyond, Parser.current_beyond, Nat.add_comm 1]
    exact closes
  have counted : 1 + (length + 1) = length + 2 := by omega
  rw [← statementsUntil_eq] at run
  refine (bind_eq (expect_beyond opens)).trans ((bind_eq run).trans ?_)
  refine (bind_eq (expect_beyond brace)).trans ?_
  rw [Parser.beyond_beyond, Parser.beyond_beyond, counted, List.append_nil, List.nil_append]
  rfl

/-- What is read as a program is read in braces one level further out. -/
theorem block_braced {opening closing : Token} {rest : List Token} (standard : parser.Standard)
    (otherStandard : other.Standard) (depths : parser.depth = other.depth + 1)
    (room : other.depth < nestingLimit)
    (pending : other.pending = opening :: (parser.pending ++ closing :: rest))
    (opens : opening.kind = .openCurly) (closes : closing.kind = .closeCurly) :
    ∃ statements found,
      program parser = .ok ⟨statements⟩ (parser.beyond parser.pending.length found) ∧
      (parser.Clears found → block other =
        .ok (.mk opening statements) (other.beyond (parser.pending.length + 2) found)) := by
  have current : other.current = opening := by simp [Parser.current, pending]
  have tokens : ∀ index < parser.pending.length, other.token (index + 1) = parser.token index := by
    intro index inside
    rw [Parser.token, Parser.token, pending, List.getElem?_cons_succ,
      List.getElem?_append_left inside, List.getElem?_eq_getElem inside]
    rfl
  have brace : (other.token (parser.pending.length + 1)).kind = .closeCurly := by
    simpa [Parser.token, pending] using closes
  have braces :
      parser.Braces (({ other with depth := other.depth + 1 } : Parser).beyond 1 []) 0 := by
    refine ⟨⟨otherStandard.table.trans standard.table.symm, depths.symm, ?_⟩, ?_, Nat.zero_le _⟩
    · intro index inside
      rw [Parser.token_beyond, Nat.add_comm 1 index]
      exact tokens index inside
    · rw [Parser.token_beyond, Nat.add_comm 1 parser.pending.length]
      exact brace
  obtain ⟨read, found, run, same⟩ := @statements_braced parser _ (nestingLimit - parser.depth) #[]
    braces standard otherStandard.inside.beyond
  refine ⟨read, found, programBody_eq run, ?_⟩
  intro clears
  have levelsLeft : nestingLimit - other.depth = nestingLimit - parser.depth + 1 := by omega
  have begins : other.current.kind = .openCurly := by rw [current, opens]
  rw [← current]
  show (levels (nestingLimit - other.depth)).block other = _
  rw [levelsLeft]
  exact nested_beyond room (blockBody_eq begins (same clears) brace)

/-- From the very same tokens there are the very same statements. -/
theorem block_same {opening closing : Token} {rest : List Token} {tree others : List Statement}
    {length consumed : Nat} {found recorded : List Diagnostic} (standard : parser.Standard)
    (otherStandard : other.Standard) (depths : parser.depth = other.depth + 1)
    (room : other.depth < nestingLimit)
    (pending : other.pending = opening :: (parser.pending ++ closing :: rest))
    (opens : opening.kind = .openCurly) (closes : closing.kind = .closeCurly)
    (run : program parser = .ok ⟨tree⟩ (parser.beyond length found))
    (clears : parser.Clears found)
    (enclosed : block other = .ok (.mk opening others) (other.beyond consumed recorded)) :
    others = tree ∧ recorded = found := by
  obtain ⟨statements, noted, again, blocks⟩ :=
    block_braced standard otherStandard depths room pending opens closes
  obtain ⟨trees, parsers⟩ := Outcome.ok.inj (run.symm.trans again)
  obtain ⟨_, rfl⟩ := Parser.beyond_injective parsers
  obtain ⟨inner, inners⟩ := Outcome.ok.inj (enclosed.symm.trans (blocks clears))
  obtain ⟨_, rfl⟩ := Parser.beyond_injective inners
  cases trees
  cases inner
  exact ⟨rfl, rfl⟩

end Routine

theorem numbered_length (tokens : List Token) : (numbered tokens).length = tokens.length :=
  List.length_mapIdx

theorem numbered_append (tokens others : List Token) :
    numbered (tokens ++ others) = numbered tokens ++
      others.mapIdx fun index token => { token with span := .numbered (index + tokens.length) } :=
  List.mapIdx_append

namespace Parser

variable {parser : Parser} {relocation : Relocation}

theorem relocate_token (index : Nat) :
    (parser.relocate relocation).token index = (parser.token index).relocate relocation.move := by
  simp [token, relocate, Option.getD_map]

theorem Standard.of_relocate (standard : (parser.relocate relocation).Standard) :
    parser.Standard := by
  refine ⟨standard.table, standard.finish, ?_⟩
  intro token member
  exact standard.pending (token.relocate relocation.move) (List.mem_map_of_mem member)

theorem Clears.of_relocate {found : List Diagnostic}
    (clears : (parser.relocate relocation).Clears (found.map (·.relocate relocation.move))) :
    parser.Clears found := by
  intro diagnostic member index ends place
  apply clears _ (List.mem_map_of_mem member) index
  · rw [relocate_token]
    exact ends
  · rw [relocate_token]
    exact congrArg relocation.move place

/-- Some of the tokens of a parser can be put at their numbers, if all is moved back. -/
theorem exists_numbered {before tokens after : List Token}
    (pending : parser.pending = before ++ (tokens ++ after)) :
    ∃ (origin : Parser) (relocation : Relocation) (first last : List Token),
      origin.relocate relocation = parser ∧
      origin.pending = first ++ (Monkey.numbered tokens ++ last) ∧
      first.map (·.relocate relocation.move) = before ∧
      last.map (·.relocate relocation.move) = after ∧
      ∀ index token, tokens[index]? = some token →
        relocation.move (Span.numbered index).start = token.span.start := by
  have moved := @relocate_numbered (tokens ++ (before ++ (after ++ [parser.finish])))
  rw [numbered_append, List.map_append] at moved
  obtain ⟨inside, others⟩ := List.append_inj moved (by rw [List.length_map, numbered_length])
  obtain ⟨first, rest, _, firsts, rests⟩ := List.map_eq_append_iff.1 others
  obtain ⟨last, final, rfl, lasts, finals⟩ := List.map_eq_append_iff.1 rests
  obtain ⟨finish, _, rfl, finished, _⟩ := List.map_eq_cons_iff.1 finals
  refine ⟨{ parser with
      pending := first ++ (Monkey.numbered tokens ++ last), finish, consumed := 0
      diagnostics := #[] },
    ⟨place (tokens ++ (before ++ (after ++ [parser.finish]))), parser.consumed,
      parser.diagnostics.toList⟩, first, last, ?_, rfl, firsts, lasts, ?_⟩
  · unfold relocate
    simp only [List.map_append, firsts, lasts, inside, finished, ← pending]
    simp
  · intro index token found
    apply place_start
    rw [List.getElem?_append_left (List.getElem?_eq_some_iff.1 found).1]
    exact found

end Parser

/-- What is found wrong at a numbered token corresponds to itself wherever the tokens stand. -/
theorem Diagnostic.corresponds_relocate {diagnostic : Diagnostic} {tokens others : List Token}
    {move otherMove : Position → Position} {index : Nat}
    (length : others.length = tokens.length) (inside : index < tokens.length)
    (position : diagnostic.position = (Span.numbered index).start)
    (places : ∀ index token, tokens[index]? = some token →
      move (Span.numbered index).start = token.span.start)
    (otherPlaces : ∀ index token, others[index]? = some token →
      otherMove (Span.numbered index).start = token.span.start) :
    (diagnostic.relocate move).Corresponds tokens others (diagnostic.relocate otherMove) := by
  have here := List.getElem?_eq_getElem inside
  have there := List.getElem?_eq_getElem (length ▸ inside : index < others.length)
  exact ⟨rfl, index, _, _, here, there, (congrArg move position).trans (places _ _ here),
    (congrArg otherMove position).trans (otherPlaces _ _ there)⟩

theorem tokensAlike_length {tokens others : List Token} (alike : tokensAlike tokens others = true) :
    others.length = tokens.length := by
  have same := congrArg List.length (tokensAlike_iff.1 alike)
  simpa using same.symm

/-- What is found wrong where all tokens are numbered, and not at the end, is found at a number. -/
theorem Parser.Begins.exists_number {parser : Parser} {tokens : List Token} {position : Position}
    (begins : parser.Begins position) (pending : parser.pending = Monkey.numbered tokens)
    (elsewhere : ∀ index, (parser.token index).kind = .endOfInput →
      position ≠ (parser.token index).span.start) (standard : parser.Standard) :
    ∃ index < tokens.length, position = (Span.numbered index).start := by
  obtain ⟨index, place⟩ := begins
  have inside : index < parser.pending.length :=
    standard.lt_length fun ends => elsewhere index ends place
  rw [pending, numbered_length] at inside
  refine ⟨index, inside, ?_⟩
  simpa [Parser.token, pending, Monkey.numbered, inside] using place

/-- What is read of tokens as a program and in braces stays so wherever they are moved. -/
theorem Routine.block_relocate {origin other : Parser} {relocation others : Relocation}
    {opening closing : Token} {rest : List Token}
    (standard : (origin.relocate relocation).Standard)
    (otherStandard : (other.relocate others).Standard)
    (depths : origin.depth = other.depth + 1) (room : other.depth < nestingLimit)
    (pending : other.pending = opening :: (origin.pending ++ closing :: rest))
    (opens : opening.kind = .openCurly) (closes : closing.kind = .closeCurly) :
    ∃ (statements : List Statement) (found : List Diagnostic),
      program (origin.relocate relocation) = .ok ⟨statements.map (·.relocate relocation.move)⟩
        ((origin.relocate relocation).beyond origin.pending.length
          (found.map (·.relocate relocation.move))) ∧
      (∀ diagnostic ∈ found, origin.Begins diagnostic.position) ∧
      (origin.Clears found → block (other.relocate others) =
        .ok (.mk (opening.relocate others.move) (statements.map (·.relocate others.move)))
          ((other.relocate others).beyond (origin.pending.length + 2)
            (found.map (·.relocate others.move)))) := by
  obtain ⟨statements, found, run, runs⟩ :=
    block_braced standard.of_relocate otherStandard.of_relocate depths room pending opens closes
  refine ⟨statements, found, ?_, ?_, ?_⟩
  · exact (@program_carries relocation).of_ok run
  · have met := programBody_begins (nestingLimit - origin.depth) origin
    rw [show programBody _ origin = _ from run] at met
    exact met.of_ok
  · intro clears
    rw [← relocateStatements_eq_map]
    exact (@block_carries others).of_ok (runs clears)

/-- What is read as a program one level further in is read alike in braces, with the same found
wrong at the same tokens, if nothing is wrong at a closing brace or at the end of the program.
Then the block ends with the brace after it. -/
theorem block_of_program {parser other : Parser} {opening closing : Token}
    {inside rest : List Token} (standard : parser.Standard) (otherStandard : other.Standard)
    (depths : parser.depth = other.depth + 1) (room : other.depth < nestingLimit)
    (pending : other.pending = opening :: (inside ++ closing :: rest))
    (opens : opening.kind = .openCurly) (closes : closing.kind = .closeCurly)
    (alike : tokensAlike parser.pending inside = true) :
    ∃ statements found,
      Routine.program parser = .ok ⟨statements⟩ (parser.beyond parser.pending.length found) ∧
      (parser.Clears found → ∃ statements' found',
        Routine.block other =
          .ok (.mk opening statements') (other.beyond (inside.length + 2) found') ∧
        statementsAlike statements statements' = true ∧ found.length = found'.length ∧
        (∀ (index : Nat) (first second : Diagnostic), found[index]? = some first →
          found'[index]? = some second → first.Corresponds parser.pending inside second) ∧
        (inside = parser.pending → statements' = statements ∧ found' = found)) := by
  have length := tokensAlike_length alike
  have numbers := numbered_eq_of_alike alike
  generalize program : parser.pending = tokens at length numbers ⊢
  obtain ⟨origin, relocation, before, after, rfl, placed, befores, afters, places⟩ :=
    @Parser.exists_numbered parser [] tokens [] (by simp [program])
  obtain rfl := List.map_eq_nil_iff.1 befores
  obtain rfl := List.map_eq_nil_iff.1 afters
  obtain ⟨origin', relocation', before', after', rfl, placed', befores', afters', places'⟩ :=
    @Parser.exists_numbered other [opening] inside (closing :: rest) pending
  obtain ⟨opening, rfl, rfl⟩ := List.map_eq_singleton_iff.1 befores'
  obtain ⟨closing, rest', rfl, rfl, _⟩ := List.map_eq_cons_iff.1 afters'
  rw [List.nil_append, List.append_nil] at placed
  rw [← numbers, ← placed] at placed'
  obtain ⟨statements, found, run, begins, runs⟩ :=
    Routine.block_relocate standard otherStandard depths room placed' opens closes
  have size : origin.pending.length = tokens.length := by rw [placed, numbered_length]
  rw [size] at run runs
  refine ⟨_, _, run, ?_⟩
  intro clears
  have numberedClears : origin.Clears found := clears.of_relocate
  have enclosed := runs numberedClears
  rw [← length] at enclosed
  refine ⟨_, _, enclosed, ?_, by simp, ?_, ?_⟩
  · rw [← relocateStatements_eq_map, ← relocateStatements_eq_map]
    exact statementsAlike_relocate _ _ _
  · intro index first second one two
    rw [List.getElem?_map] at one two
    obtain ⟨diagnostic, member, rfl⟩ := Option.map_eq_some_iff.1 one
    rw [member] at two
    cases two
    have found := List.mem_of_getElem? member
    obtain ⟨number, inside, position⟩ := (begins _ found).exists_number placed
      (fun index ends => numberedClears _ found index (by simp [ends])) standard.of_relocate
    exact Diagnostic.corresponds_relocate length inside position places places'
  · rintro rfl
    rw [← program] at pending
    exact Routine.block_same standard otherStandard depths room pending opens closes run clears
      enclosed

theorem block_of_program_malformed :
    ∃ (parser other : Parser) (opening : Token) (statements statements' : List Statement)
      (found found' : List Diagnostic),
      parser = { Parser.ofSource "let 1;x" none with depth := 1 } ∧
      other = Parser.ofSource "{ let 1; x } y" none ∧
      Routine.program parser = .ok ⟨statements⟩ (parser.beyond parser.pending.length found) ∧
      Routine.block other = .ok (.mk opening statements') (other.beyond 6 found') ∧
      statementsAlike statements statements' = true ∧ found.length = found'.length := by
  have pending : (Parser.ofSource "{ let 1; x } y" none).pending =
      ⟨.openCurly, "\x7b", .between "shell" 0 1⟩ :: (
        [⟨.letKeyword, "let", .between "shell" 2 5⟩, ⟨.integer, "1", .between "shell" 6 7⟩,
          ⟨.semicolon, ";", .between "shell" 7 8⟩, ⟨.identifier, "x", .between "shell" 9 10⟩] ++
        ⟨.closeCurly, "\x7d", .between "shell" 11 12⟩ ::
        [⟨.identifier, "y", .between "shell" 13 14⟩]) := by decide +kernel
  obtain ⟨statements, found, run, enclosed⟩ := @block_of_program
    { Parser.ofSource "let 1;x" none with depth := 1 } (.ofSource "{ let 1; x } y" none)
    _ _ _ _ (Parser.ofSource_standard _ _).inside (Parser.ofSource_standard _ _) rfl (by decide)
    pending rfl rfl (by decide +kernel)
  have early : (match Routine.program { Parser.ofSource "let 1;x" none with depth := 1 } with
      | .ok _ after => after.diagnostics.toList.all (·.position.offset = 4)
      | _ => false) = true := by decide +kernel
  have elsewhere : ∀ token ∈ tokenize "let 1;x" none,
      token.kind ∈ [.closeCurly, .endOfInput] → token.span.start.offset ≠ 4 := by decide +kernel
  have clears : Parser.Clears { Parser.ofSource "let 1;x" none with depth := 1 } found := by
    intro diagnostic member index ends place
    rw [run] at early
    have offset := of_decide_eq_true (List.all_eq_true.1 early diagnostic (by simp [member]))
    exact elsewhere _ (Parser.token_mem_tokenize index) ends (place ▸ offset)
  obtain ⟨statements', found', block, alike, length, _⟩ := enclosed clears
  exact ⟨_, _, _, statements, statements', found, found', rfl, rfl, run, block, alike, length⟩

end Monkey
