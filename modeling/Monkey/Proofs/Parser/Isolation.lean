import Monkey.Proofs.Parser.Lookahead
import Monkey.Proofs.Parser.Relocation
import Monkey.Proofs.Token.Concatenation

namespace Monkey

/-! Statements that end with a semicolon stand by themselves.

If the last of some tokens is a semicolon and what is wrong with them shows before their end,
nothing that comes after them changes how they are read.
-/

theorem Terminated.not_unterminated {tokens : List Token} (terminated : Terminated tokens) :
    ¬ Unterminated tokens := by
  obtain ⟨before, last, rfl, semicolon⟩ := terminated
  intro kept
  obtain ⟨others, final, same, other⟩ := kept
  obtain ⟨_, lasts⟩ := List.append_inj' same rfl
  cases lasts
  exact other semicolon

namespace Parser

variable {parser other : Parser} {count : Nat} {found : List Diagnostic}

/-- What is pending for one parser ends with a semicolon, and the other one sees the same
before anything else. -/
structure Heads (parser other : Parser) : Prop where
  standard : parser.Standard
  otherStandard : other.Standard
  terminated : Terminated parser.pending
  agrees : parser.Agrees other parser.pending.length

namespace Heads

theorem beyond (heads : parser.Heads other) (inside : count < parser.pending.length) :
    (parser.beyond count found).Heads (other.beyond count found) := by
  refine ⟨heads.standard.beyond, heads.otherStandard.beyond, heads.terminated.drop inside, ?_⟩
  apply heads.agrees.beyond
  rw [beyond_pending, List.length_drop]
  omega

theorem current (heads : parser.Heads other) : other.current = parser.current :=
  heads.agrees.tokens 0 heads.terminated.length_pos

/-- What does not end with a semicolon is not all there is. -/
theorem lt_length (heads : parser.Heads other) (inside : count ≤ parser.pending.length)
    (ends : Unterminated (parser.taken count)) : count < parser.pending.length := by
  apply Nat.lt_of_le_of_ne inside
  intro same
  subst same
  apply heads.terminated.not_unterminated
  rwa [taken, List.take_length] at ends

theorem surveyed_le (heads : parser.Heads other) (inside : count < parser.pending.length) :
    parser.surveyed count ≤ parser.pending.length := by
  unfold surveyed
  split
  · exact heads.terminated.length_pos
  · rename_i goesOn
    -- The last token is a boundary, and the search for one starts before it.
    have later : max 1 count < parser.pending.length := by
      obtain ⟨before, last, pending, semicolon⟩ := heads.terminated
      cases before with
      | nil =>
          have alone : parser.pending.length = 1 := by simp [pending]
          have first : parser.current.kind = .semicolon := by
            simp [Parser.current, pending, semicolon]
          exact absurd ⟨by omega, first⟩ goesOn
      | cons first before =>
          have several : 1 < parser.pending.length := by simp [pending]
          omega
    have rest := heads.terminated.drop later
    have boundary : (parser.beyond (max 1 count) []).untilBoundary <
        (parser.beyond (max 1 count) []).pending.length := by
      obtain ⟨before, last, pending, semicolon⟩ := rest
      apply List.findIdx_lt_length_of_exists
      refine ⟨last, ?_, ?_⟩
      · rw [beyond_pending, pending]
        simp
      · simp [Table.isBoundary, semicolon]
    rw [beyond_pending, List.length_drop] at boundary
    omega

end Heads

end Parser

namespace Contract

/-- What an outcome says about the same routine run from a parser that sees more. -/
def closed {α : Type} (parser other : Parser) (outcome : Outcome α) : Contract α where
  ok value count found :=
    count ≤ parser.pending.length → outcome = .ok value (other.beyond count found)
  failed diagnostic count found :=
    count < parser.pending.length → outcome = .failed diagnostic (other.beyond count found)
  endless := True

end Contract

namespace Outcome.Meets

variable {α β : Type} {parser other : Parser}

theorem bind_closed {routine : Routine α} {next : α → Routine β} (heads : parser.Heads other)
    (isLocal : routine.Local)
    (proper : (routine parser).Meets parser (.proper (fun _ => Unterminated) parser))
    (continues : ∀ (value : α) (parser other : Parser), parser.Heads other →
      (next value parser).Meets parser (.closed parser other (next value other))) :
    ((routine >>= next) parser).Meets parser (.closed parser other ((routine >>= next) other)) := by
  have met := proper.and (isLocal parser other heads.standard heads.otherStandard)
  apply met.bind
  · intro diagnostic count found kept inside
    obtain ⟨_, same⟩ := kept
    rw [Routine.bind_apply, same (heads.agrees.mono inside)]
  · intro _
    trivial
  · intro value count found kept
    obtain ⟨⟨inside, ends⟩, same⟩ := kept
    have strict := heads.lt_length inside ends
    have first := same (heads.agrees.mono strict)
    apply (continues value _ _ (heads.beyond strict)).mono
    · intro result more others kept bound
      have fits : more ≤ (parser.beyond count found).pending.length := by
        rw [Parser.beyond_pending, List.length_drop]
        omega
      rw [Routine.bind_eq first, kept fits, Parser.beyond_beyond]
    · intro diagnostic more others kept bound
      have fits : more < (parser.beyond count found).pending.length := by
        rw [Parser.beyond_pending, List.length_drop]
        omega
      rw [Routine.bind_eq first, kept fits, Parser.beyond_beyond]
    · intro _
      trivial

theorem bind_pure_closed {routine : Routine α} {value : α → β}
    (met : (routine parser).Meets parser (.closed parser other (routine other))) :
    ((routine >>= fun result => Pure.pure (value result)) parser).Meets parser
      (.closed parser other ((routine >>= fun result => Pure.pure (value result)) other)) := by
  apply met.bind
  · intro diagnostic count found same inside
    rw [Routine.bind_apply, same inside]
  · intro _
    trivial
  · intro result count found same
    apply Outcome.Meets.pure
    intro inside
    rw [Routine.bind_eq (same inside)]
    simp

theorem skip_closed {kind : Kind} (heads : parser.Heads other) :
    (Routine.skip kind parser).Meets parser (.closed parser other (Routine.skip kind other)) := by
  apply Outcome.Meets.skip
  · intro present inside
    rw [Routine.skip, heads.current, if_pos present, Parser.advance_eq_beyond]
  · intro absent inside
    rw [Routine.skip, heads.current, if_neg absent, Parser.beyond_zero]

end Outcome.Meets

namespace Routine

open Outcome

variable {parser other : Parser} {inner : Nested}

theorem ending_closed (proper : inner.Proper) (isLocal : inner.Keeps Local)
    (heads : parser.Heads other) :
    (ending inner parser).Meets parser (.closed parser other (ending inner other)) := by
  apply Meets.bind_closed heads (isLocal.expression _) (proper.expression _ _ heads.standard)
  intro value parser other heads
  exact .bind_pure_closed (.skip_closed heads)

theorem expressionStatement_closed (proper : inner.Proper) (isLocal : inner.Keeps Local)
    (heads : parser.Heads other) :
    (expressionStatement inner parser).Meets parser
      (.closed parser other (expressionStatement inner other)) := by
  rw [expressionStatement_apply, expressionStatement_apply, heads.current]
  exact .bind_pure_closed (ending_closed proper isLocal heads)

theorem keyword_proper (standard : parser.Standard) (present : parser.current.kind ≠ .endOfInput)
    (other : parser.current.kind ≠ .semicolon) :
    (advance parser).Meets parser (.proper (fun _ => Unterminated) parser) := by
  apply (Meets.advance_proper standard present).mono_proper
  intro _ _ kept
  obtain ⟨rfl, rfl⟩ := kept
  exact .one other

theorem statementBody_closed (proper : inner.Proper) (isLocal : inner.Keeps Local)
    (heads : parser.Heads other) :
    (statementBody inner parser).Meets parser
      (.closed parser other (statementBody inner other)) := by
  rw [statementBody_apply, statementBody_apply, heads.current, heads.agrees.table,
    heads.standard.table]
  cases registered : Table.standard.statementForm parser.current.kind with
  | none => exact expressionStatement_closed proper isLocal heads
  | some form =>
      obtain ⟨present, plain⟩ := Table.standard_statementForm_kind registered
      have begins := keyword_proper heads.standard present plain
      cases form with
      | binding =>
          apply Meets.bind_closed heads .advance begins
          intro token parser other heads
          apply Meets.bind_closed heads Local.compositional.identifier
            (identifier_proper heads.standard)
          intro name parser other heads
          have sign : (expect .assignment parser).Meets parser
              (.proper (fun _ => Unterminated) parser) := by
            apply (Meets.expect_proper heads.standard (by decide)).mono_proper
            intro token _ kept
            obtain ⟨rfl, binds⟩ := kept
            exact .one (by simp [binds])
          apply Meets.bind_closed heads .expect sign
          intro assignment parser other heads
          exact .bind_pure_closed (ending_closed proper isLocal heads)
      | result =>
          apply Meets.bind_closed heads .advance begins
          intro token parser other heads
          exact .bind_pure_closed (ending_closed proper isLocal heads)
      | expression => exact expressionStatement_closed proper isLocal heads

end Routine

/-- Nothing is found wrong at this place. -/
def Settled (place : Position) (found : List Diagnostic) : Prop :=
  ∀ diagnostic ∈ found, diagnostic.position ≠ place

theorem Settled.append_iff {place : Position} {first second : List Diagnostic} :
    Settled place (first ++ second) ↔ Settled place first ∧ Settled place second :=
  List.forall_mem_append

namespace Routine

open Outcome

variable {parser other : Parser} {inner : Nested}

/-- A statement is read alike, and so is what is left of it if it fails. -/
theorem recovering_closed (proper : inner.Proper) (isLocal : inner.Keeps Local)
    (heads : parser.Heads other) :
    (recovering (statementBody inner) parser).Meets parser
      (.onSuccess fun result count found => Settled parser.finish.span.start found →
        recovering (statementBody inner) other = .ok result (other.beyond count found)) := by
  have met := (statementBody_proper proper heads.standard).and
    (statementBody_closed proper isLocal heads)
  apply met.recovering
  · intro statement count found kept settled
    obtain ⟨⟨inside, _⟩, same⟩ := kept
    rw [recovering, same inside]
  · intro diagnostic count found kept settled
    obtain ⟨⟨inside, marks⟩, same⟩ := kept
    -- A failure after the last semicolon would be at the end, where nothing is wrong.
    have strict : count < parser.pending.length := by
      apply Nat.lt_of_le_of_ne inside
      intro same
      subst same
      apply settled diagnostic (by simp)
      rw [marks.position]
      simp [Parser.token]
    have resumed := Parser.Agrees.resumed (heads.agrees.mono (heads.surveyed_le strict))
      heads.standard heads.otherStandard
    rw [recovering_failed (same strict), resumed]
  · intro _
    trivial

theorem statementsRound_closed {ends : Kind → Bool} {statements : Array Statement}
    (proper : inner.Proper) (isLocal : inner.Keeps Local) (heads : parser.Heads other)
    (goesOn : ¬ ends parser.current.kind = true) :
    (statementsRound ends (statementBody inner) statements parser).Meets parser
      (.onSuccess fun decision count found => ∃ next, decision = .again next ∧
        (Settled parser.finish.span.start found →
          statementsRound ends (statementBody inner) statements other =
            .ok decision (other.beyond count found))) := by
  unfold statementsRound
  rw [heads.current, if_neg goesOn, if_neg goesOn]
  apply (recovering_closed proper isLocal heads).bind
  · intro _ _ _ _
    trivial
  · intro _
    trivial
  · intro result count found same
    cases result with
    | none =>
        apply Meets.pure
        refine ⟨_, rfl, fun settled => ?_⟩
        rw [bind_eq (same (Settled.append_iff.1 settled).1)]
        simp
    | some statement =>
        apply Meets.pure
        refine ⟨_, rfl, fun settled => ?_⟩
        rw [bind_eq (same (Settled.append_iff.1 settled).1)]
        simp

/-- Once all that is pending here is read, the other parser has the same statements and goes
on from there. -/
theorem statementsUntil_closed {ends : Kind → Bool} (proper : inner.Proper) (isLocal : inner.Keeps Local)
    (only : ∀ kind, ends kind = true ↔ kind = .endOfInput) (heads : parser.Heads other) :
    (statementsUntil ends (statementBody inner) parser).Meets parser
      (.onSuccess fun statements count found => count = parser.pending.length ∧
        (Settled parser.finish.span.start found →
          statementsUntil ends (statementBody inner) other =
            iterate (statementsRound ends (statementBody inner)) statements.toArray
              (other.beyond count found))) := by
  rw [statementsUntil_eq]
  -- As long as nothing is found wrong at the end, both loops have the same statements.
  apply Meets.iterate (fun statements count found => count ≤ parser.pending.length ∧
    (Settled parser.finish.span.start found →
      iterate (statementsRound ends (statementBody inner)) #[] other =
        iterate (statementsRound ends (statementBody inner)) statements (other.beyond count found)))
  · intro statements count found kept
    obtain ⟨inside, reached⟩ := kept
    by_cases finished : (parser.token count).kind = .endOfInput
    · have whole : count = parser.pending.length := by
        apply Nat.le_antisymm inside
        apply Nat.le_of_not_lt
        intro strict
        exact heads.standard.kind_ne_endOfInput strict finished
      have stops : statementsRound ends (statementBody inner) statements
          (parser.beyond count found) =
            .ok (.done statements.toList) (parser.beyond count found) := by
        rw [statementsRound, if_pos ((only _).2 (by rwa [Parser.current_beyond]))]
      rw [stops]
      apply Meets.pure
      refine ⟨whole, ?_⟩
      intro settled
      rw [List.append_nil] at settled ⊢
      exact reached settled
    · have strict := heads.standard.lt_length finished
      have rest : (parser.beyond count found).Heads (other.beyond count found) :=
        heads.beyond strict
      have goesOn : ¬ ends (parser.beyond count found).current.kind = true := by
        rw [only, Parser.current_beyond]
        exact finished
      apply ((statementsRound_certain proper ((only _).2 rfl) rest.standard).and
        (statementsRound_closed proper isLocal rest goesOn)).mono
      · intro decision more others kept
        obtain ⟨⟨bound, shape⟩, next, rfl, same⟩ := kept
        rw [Parser.beyond_pending, List.length_drop] at bound
        refine ⟨.inl shape.1, ?_⟩
        intro consumed
        refine ⟨by omega, ?_⟩
        intro settled
        obtain ⟨before, after⟩ := Settled.append_iff.1 settled
        have first := rest.agrees.mono (show 1 ≤ _ from rest.terminated.length_pos)
        rw [reached before, iterate_again (same after)
          (first.shorter rest.standard rest.otherStandard consumed), Parser.beyond_beyond]
      · intro _ _ _ _
        trivial
      · intro _
        trivial
  · refine ⟨Nat.zero_le _, ?_⟩
    intro _
    rw [Parser.beyond_zero]

end Routine

/-- A source and what is read from it. -/
def Parses (source : String) (file : Option String) (program : Program)
    (diagnostics : List Diagnostic) : Prop :=
  ∃ after, parse source file = .ok program after ∧ after.diagnostics.toList = diagnostics

namespace Parser

variable {first second : String} {file : Option String}

theorem ofSource_append (terminated : Terminated (ofSource first file).pending) :
    (ofSource (first ++ second) file).pending = (ofSource first file).pending ++
      (ofSource second file).pending.map (·.relocate (·.shift first.utf8ByteSize)) := by
  have joined := scan_append second.toList terminated
  rw [← String.toList_append, byteLength_toList, scan_shift] at joined
  exact joined

/-- After what is read from a source that ends with a semicolon, a parser of more text looks at
the rest of it as a parser of the rest alone would. -/
theorem beyond_ofSource_append (terminated : Terminated (ofSource first file).pending)
    (found : List Diagnostic) :
    (ofSource (first ++ second) file).beyond (ofSource first file).pending.length found =
      (ofSource second file).relocate
        ⟨(·.shift first.utf8ByteSize), (ofSource first file).pending.length, found⟩ := by
  have pending :
      (ofSource (first ++ second) file).pending.drop (ofSource first file).pending.length =
      (ofSource second file).pending.map (·.relocate (·.shift first.utf8ByteSize)) := by
    rw [ofSource_append terminated, List.drop_left]
  have finish : (ofSource (first ++ second) file).finish =
      (ofSource second file).finish.relocate (·.shift first.utf8ByteSize) := by
    show (⟨_, _, _⟩ : Token) = ⟨_, _, Span.relocate _ (.between _ _ _)⟩
    rw [Span.relocate_between, Nat.add_comm, ← String.utf8ByteSize_append]
    rfl
  have consumed :
      (ofSource (first ++ second) file).consumed + (ofSource first file).pending.length =
      (ofSource first file).pending.length + (ofSource second file).consumed :=
    Nat.add_comm _ _
  have diagnostics : (ofSource (first ++ second) file).diagnostics ++ found =
      (found ++ (ofSource second file).diagnostics.toList.map
        (·.relocate (·.shift first.utf8ByteSize))).toArray := by
    simp [ofSource, ofTokens]
  unfold beyond relocate
  rw [pending, finish, consumed, diagnostics]
  rfl

theorem ofSource_heads (terminated : Terminated (ofSource first file).pending) :
    (ofSource first file).Heads (ofSource (first ++ second) file) := by
  refine ⟨ofSource_standard _ _, ofSource_standard _ _, terminated, rfl, rfl, ?_⟩
  intro index inside
  unfold token
  rw [ofSource_append terminated, List.getElem?_append_left inside,
    List.getElem?_eq_getElem inside]
  rfl

end Parser

namespace Routine

def statements : Routine (List Statement) :=
  statementsUntil (· = .endOfInput) (statementBody (levels nestingLimit))

theorem statements_ofSource (source : String) (file : Option String) :
    ∃ program count found, statements (.ofSource source file) =
      .ok program ((Parser.ofSource source file).beyond count found) := by
  have certain : (statements (.ofSource source file)).Meets (.ofSource source file)
      (.certain (fun _ _ => True) (.ofSource source file)) :=
    statementsUntil_certain (levels_proper nestingLimit) (by decide)
      (Parser.ofSource_standard source file)
  obtain ⟨program, count, found, run, _⟩ := certain.succeeds (fun _ _ _ impossible => impossible) id
  exact ⟨program, count, found, run⟩

theorem statements_of_heads {parser other : Parser} (heads : parser.Heads other) :
    ∃ program found, statements parser =
        .ok program (parser.beyond parser.pending.length found) ∧
      (Settled parser.finish.span.start found → statements other =
        iterate (statementsRound (· = .endOfInput) (statementBody (levels nestingLimit)))
          program.toArray (other.beyond parser.pending.length found)) := by
  have certain : (statements parser).Meets parser (.certain (fun _ _ => True) parser) :=
    statementsUntil_certain (levels_proper nestingLimit) (by decide) heads.standard
  have met := certain.and (statementsUntil_closed (levels_proper nestingLimit)
    (Local.compositional.levels nestingLimit) (fun kind => decide_eq_true_iff) heads)
  obtain ⟨program, count, found, run, _, rfl, goesOn⟩ :=
    met.succeeds (fun _ _ _ impossible => impossible.1) (fun impossible => impossible.1)
  exact ⟨program, found, run, goesOn⟩

theorem statements_relocate {parser after : Parser} {program : List Statement}
    (run : statements parser = .ok program after) (relocation : Relocation)
    (before : List Statement) :
    iterate (statementsRound (· = .endOfInput) (statementBody (levels nestingLimit)))
        before.toArray (parser.relocate relocation) =
      .ok (before ++ program.map (·.relocate relocation.move)) (after.relocate relocation) := by
  have alone : iterate (statementsRound (· = .endOfInput) (statementBody (levels nestingLimit)))
      #[] parser = .ok program after := by
    rw [← statementsUntil_eq]
    exact run
  rw [statements_carries (statementBody_carries (levels_carries nestingLimit)) before.toArray,
    alone]
  rfl

end Routine

theorem Parses.of_run {source : String} {file : Option String} {statements : List Statement}
    {after : Parser} (run : Routine.statements (.ofSource source file) = .ok statements after) :
    Parses source file ⟨statements⟩ after.diagnostics.toList := by
  refine ⟨after, ?_, rfl⟩
  show (Routine.statements >>= fun statements => (pure ⟨statements⟩ : Routine Program)) _ = _
  rw [Routine.bind_eq run]
  rfl

/-- A source is parsed alike whatever comes before it, if that ends with a semicolon and what
is wrong with it shows before its end. -/
theorem parse_append {first second : String} {file : Option String}
    (ends : ∃ before semicolon finish, tokenize first file = before ++ [semicolon, finish] ∧
      semicolon.kind = .semicolon) :
    ∃ program diagnostics others otherDiagnostics,
      Parses first file program diagnostics ∧ Parses second file others otherDiagnostics ∧
      ((∀ diagnostic ∈ diagnostics,
          diagnostic.position.offset ≠ Position.clamp first.utf8ByteSize) →
        Parses (first ++ second) file
          ⟨program.statements ++ (others.relocate (·.shift first.utf8ByteSize)).statements⟩
          (diagnostics ++ otherDiagnostics.map (·.relocate (·.shift first.utf8ByteSize)))) := by
  have terminated : Terminated (Parser.ofSource first file).pending := by
    obtain ⟨before, semicolon, finish, tokens, kind⟩ := ends
    rw [Parser.tokenize_eq, show before ++ [semicolon, finish] = (before ++ [semicolon]) ++ [finish]
      by simp] at tokens
    exact ⟨before, semicolon, (List.append_inj' tokens rfl).1, kind⟩
  have heads : (Parser.ofSource first file).Heads (.ofSource (first ++ second) file) :=
    Parser.ofSource_heads terminated
  obtain ⟨program, found, runFirst, goesOn⟩ := Routine.statements_of_heads heads
  obtain ⟨others, count, otherFound, runSecond⟩ := Routine.statements_ofSource second file
  refine ⟨_, _, _, _, .of_run runFirst, .of_run runSecond, ?_⟩
  intro elsewhere
  have settled : Settled (Parser.ofSource first file).finish.span.start found := by
    intro diagnostic member place
    refine elsewhere diagnostic ?_ (congrArg Position.offset place)
    rw [Parser.beyond_diagnostics]
    exact List.mem_append_right _ member
  -- The parser of both goes on where a parser of the second one alone would start.
  have runBoth := goesOn settled
  rw [Parser.beyond_ofSource_append terminated, Routine.statements_relocate runSecond] at runBoth
  have recorded : ((Parser.ofSource first file).beyond (Parser.ofSource first file).pending.length
      found).diagnostics.toList = found := by
    rw [Parser.beyond_diagnostics]
    rfl
  rw [recorded]
  exact .of_run runBoth

theorem parse_append_malformed :
    ∃ program diagnostics others otherDiagnostics,
      Parses "let 1;x;" none program diagnostics ∧ Parses "y" none others otherDiagnostics ∧
      Parses ("let 1;x;" ++ "y") none
        ⟨program.statements ++ (others.relocate (·.shift 8)).statements⟩
        (diagnostics ++ otherDiagnostics.map (·.relocate (·.shift 8))) := by
  have tokens : tokenize "let 1;x;" none =
      [⟨.letKeyword, "let", .between "shell" 0 3⟩, ⟨.integer, "1", .between "shell" 4 5⟩,
        ⟨.semicolon, ";", .between "shell" 5 6⟩, ⟨.identifier, "x", .between "shell" 6 7⟩] ++
      [⟨.semicolon, ";", .between "shell" 7 8⟩, .endOfInput "shell" 8] := by decide +kernel
  have early : (match parse "let 1;x;" none with
      | .ok _ after => after.diagnostics.toList.all (·.position.offset = 4)
      | _ => false) = true := by decide +kernel
  obtain ⟨program, diagnostics, others, otherDiagnostics, ⟨after, parsed, recorded⟩, rest, joins⟩ :=
    @parse_append "let 1;x;" "y" none ⟨_, _, _, tokens, rfl⟩
  refine ⟨program, diagnostics, others, otherDiagnostics, ⟨after, parsed, recorded⟩, rest, joins ?_⟩
  rw [parsed] at early
  intro diagnostic member
  rw [← recorded] at member
  have place := List.all_eq_true.1 early diagnostic member
  rw [of_decide_eq_true place]
  decide

end Monkey
