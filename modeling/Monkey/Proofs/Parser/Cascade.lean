import Monkey.Proofs.Parser.Charging
import Monkey.Proofs.Parser.Overflow
import Monkey.Proofs.Parser.Recovery
import Monkey.Proofs.Parser.Window

namespace Monkey

/-! One mistake does not cause another.

Where there are no braces a statement never goes past a semicolon.  One that fails is skipped up
to a semicolon, or up to a keyword or the end of the input before it.  So what is found wrong
between two semicolons is found once, unless a keyword there begins another statement.
-/

namespace Parser

/-- A parser of the language that has no braces ahead. -/
structure Flat (parser : Parser) : Prop where
  standard : parser.Standard
  plain : ∀ index, (parser.token index).kind ∉ [.openCurly, .closeCurly]

namespace Flat

variable {parser : Parser} {count : Nat} {found : List Diagnostic}

theorem beyond (flat : parser.Flat) : (parser.beyond count found).Flat where
  standard := flat.standard.beyond
  plain index := by
    rw [token_beyond]
    exact flat.plain _

theorem inside (flat : parser.Flat) : ({ parser with depth := parser.depth + 1 } : Parser).Flat :=
  ⟨flat.standard.inside, flat.plain⟩

end Flat

/-- No semicolon is among what was consumed, the last tokens apart that are spared, and nothing is
wrong but integers. -/
structure Smooth (parser : Parser) (spare count : Nat) (found : List Diagnostic) : Prop where
  unbroken : ∀ index, index + spare < count → (parser.token index).kind ≠ .semicolon
  clean : Clean found

namespace Smooth

variable {parser : Parser} {spare count more : Nat} {found others : List Diagnostic}

theorem none : parser.Smooth spare 0 [] :=
  ⟨fun _ before => absurd before (Nat.not_lt_zero _), .nil⟩

theorem one (other : parser.current.kind ≠ .semicolon) (clean : Clean found) :
    parser.Smooth 0 1 found := by
  refine ⟨fun index before => ?_, clean⟩
  obtain rfl : index = 0 := by omega
  exact other

theorem append (smooth : parser.Smooth 0 count found)
    (later : (parser.beyond count found).Smooth spare more others) :
    parser.Smooth spare (count + more) (found ++ others) := by
  refine ⟨fun index before => ?_, Clean.append_iff.2 ⟨smooth.clean, later.clean⟩⟩
  by_cases early : index < count
  · exact smooth.unbroken index early
  · obtain ⟨further, rfl⟩ := Nat.exists_eq_add_of_le (Nat.le_of_not_lt early)
    have kept := later.unbroken further (by omega)
    rwa [token_beyond] at kept

end Smooth

end Parser

namespace Contract

/-- A failure comes before any semicolon, and a success takes none, the last tokens apart that are
spared. -/
def smooth {α : Type} (spare : Nat) (parser : Parser) : Contract α where
  ok _ count found := parser.Smooth spare count found
  failed _ count found := parser.Smooth 0 count found
  endless := True

end Contract

namespace Outcome.Meets

variable {α β : Type} {parser : Parser} {spare : Nat} {routine : Routine α} {next : α → Routine β}

theorem bind_smooth (flat : parser.Flat) (met : (routine parser).Meets parser (.smooth 0 parser))
    (later : ∀ (value : α) (parser : Parser), parser.Flat →
      (next value parser).Meets parser (.smooth spare parser)) :
    ((routine >>= next) parser).Meets parser (.smooth spare parser) := by
  refine met.bind (fun _ _ _ smooth => smooth) id fun value count found smooth => ?_
  exact (later value _ flat.beyond).mono (fun _ _ _ kept => smooth.append kept)
    (fun _ _ _ kept => smooth.append kept) id

theorem bind_pure_smooth {value : α → β}
    (met : (routine parser).Meets parser (.smooth spare parser)) :
    ((routine >>= fun result => Pure.pure (value result)) parser).Meets parser
      (.smooth spare parser) := by
  refine met.bind (fun _ _ _ smooth => smooth) id fun result count found smooth => .pure ?_
  show parser.Smooth spare (count + 0) (found ++ [])
  rwa [Nat.add_zero, List.append_nil]

theorem advance_smooth (other : parser.current.kind ≠ .semicolon) :
    (Routine.advance parser).Meets parser (.smooth 0 parser) :=
  .advance (.one other .nil)

end Outcome.Meets

namespace Routine

open Outcome

variable {α β : Type}

/-- Without braces ahead, the routine takes no semicolon. -/
def Smooth (routine : Routine α) : Prop :=
  ∀ parser : Parser, parser.Flat → (routine parser).Meets parser (.smooth 0 parser)

namespace Smooth

variable {routine : Routine α} {next : α → Routine β} {kind : Kind}

theorem pure {value : α} : Smooth (Pure.pure value : Routine α) :=
  fun _ _ => .pure .none

theorem fail {cause : Cause} : Smooth (Routine.fail cause : Routine α) :=
  fun _ _ => .fail .none

theorem bind (smooth : Smooth routine) (later : ∀ value, Smooth (next value)) :
    Smooth (routine >>= next) :=
  fun parser flat => (smooth parser flat).bind_smooth flat later

theorem expect (other : kind ≠ .semicolon) : Smooth (Routine.expect kind) :=
  fun _ _ => .expect (fun same => .one (by rwa [same]) .nil) fun _ => .none

theorem skip (other : kind ≠ .semicolon) : Smooth (Routine.skip kind) :=
  fun _ _ => .skip (fun same => .one (by rwa [same]) .nil) fun _ => .none

theorem nested (smooth : Smooth routine) : Smooth (Routine.nested routine) :=
  fun _ flat => .nested (fun _ => .none) fun _ => (smooth _ flat.inside).mono
    (fun _ _ _ kept => ⟨kept.unbroken, kept.clean⟩)
    (fun _ _ _ kept => ⟨kept.unbroken, kept.clean⟩) id

theorem iterate {round : α → Routine (Round α β)} (each : ∀ value, Smooth (round value))
    {start : α} : Smooth (Routine.iterate round start) := by
  intro parser flat
  refine .iterate (fun _ count found => parser.Smooth 0 count found) ?_ .none
  intro value count found smooth
  refine (each value _ flat.beyond).mono ?_ (fun _ _ _ later => smooth.append later) id
  intro decision more others later
  cases decision with
  | again next => exact ⟨.inr trivial, fun _ => smooth.append later⟩
  | done result => exact smooth.append later

theorem identifier : Smooth Routine.identifier :=
  (expect (by decide)).bind fun _ => pure

theorem separated (item : Smooth routine) : Smooth (Routine.separated routine) := by
  refine iterate fun items => item.bind fun value => (skip (by decide)).bind fun skipped => ?_
  split <;> exact pure

theorem enclosed (item : Smooth routine) : Smooth (Routine.enclosed routine) := by
  refine (skip (by decide)).bind fun skipped => ?_
  split
  · exact pure
  · exact item.separated.bind fun _ => (expect (by decide)).bind fun _ => pure

/-- A block cannot even be opened. -/
theorem blockBody {inner : Nested} : Smooth (Routine.blockBody inner) := by
  intro parser flat
  have closed : parser.current.kind ≠ .openCurly :=
    fun opening => flat.plain 0 (by simp [Parser.token_zero, opening])
  have stopped : Routine.blockBody inner parser =
      Routine.fail (.expectedToken .openCurly parser.current.kind) parser :=
    bind_failed (by rw [Routine.expect, if_neg closed]; rfl)
  rw [stopped]
  exact .fail .none

end Smooth

end Routine

/-- What stands one level further in takes no semicolon. -/
structure Nested.Smooth (inner : Nested) : Prop where
  expression : ∀ power, (inner.expression power).Smooth
  block : inner.block.Smooth

namespace Routine

open Outcome

variable {inner : Nested} {parser : Parser}

theorem atom_smooth (other : parser.current.kind ≠ .semicolon) :
    (atom parser).Meets parser (.smooth 0 parser) := by
  rw [atom_apply]
  exact .ok (.one other (by simpa using Clean.excess [parser.current]))

theorem prefixForm_smooth (form : PrefixForm) (smooth : inner.Smooth) (flat : parser.Flat)
    (other : parser.current.kind ≠ .semicolon) :
    (form.read inner parser).Meets parser (.smooth 0 parser) := by
  have advanced := Meets.advance_smooth other
  cases form with
  | atom => exact atom_smooth other
  | unary => exact advanced.bind_smooth flat fun _ =>
      (smooth.expression _).bind fun _ => .pure
  | group => exact advanced.bind_smooth flat fun _ =>
      (smooth.expression _).bind fun _ => (Smooth.expect (by decide)).bind fun _ => .pure
  | conditional =>
      refine advanced.bind_smooth flat fun _ => (Smooth.expect (by decide)).bind fun _ => ?_
      refine (smooth.expression _).bind fun _ => (Smooth.expect (by decide)).bind fun _ => ?_
      refine smooth.block.bind fun _ => (Smooth.skip (by decide)).bind fun _ => ?_
      split
      · exact smooth.block.bind fun _ => .pure
      · exact .pure
  | function => exact advanced.bind_smooth flat fun _ =>
      (Smooth.expect (by decide)).bind fun _ => Smooth.identifier.enclosed.bind fun _ =>
        smooth.block.bind fun _ => .pure

theorem infixForm_smooth {left : Expr} {power : Power} (form : InfixForm)
    (smooth : inner.Smooth) (flat : parser.Flat) (other : parser.current.kind ≠ .semicolon) :
    (form.read inner left power parser).Meets parser (.smooth 0 parser) := by
  have advanced := Meets.advance_smooth other
  cases form with
  | binary => exact advanced.bind_smooth flat fun _ =>
      (smooth.expression _).bind fun _ => .pure
  | call => exact advanced.bind_smooth flat fun _ =>
      (smooth.expression _).enclosed.bind fun _ => .pure

theorem leading_smooth (smooth : inner.Smooth) : Smooth (leading inner) := by
  intro parser flat
  rw [leading_apply, flat.standard.table]
  split
  · exact .fail .none
  · rename_i registered
    exact prefixForm_smooth _ smooth flat (Table.standard_prefixForm_kind registered).2

theorem continued_smooth {power : Power} {left : Expr} (smooth : inner.Smooth) :
    Smooth (continued inner power left) := by
  intro parser flat
  rw [continued_apply, flat.standard.table]
  split
  · exact .pure .none
  · rename_i registered
    split
    · have other := (Table.standard_infixRule_kind registered).2
      exact (infixForm_smooth _ smooth flat other).bind_smooth flat fun _ => Smooth.pure
    · exact .pure .none

theorem levels_smooth (count : Nat) : (levels count).Smooth := by
  induction count with
  | zero => exact ⟨fun _ => .fail, .fail⟩
  | succ count ih =>
      refine ⟨fun power => ?_, Smooth.blockBody.nested⟩
      exact ((leading_smooth ih).bind fun _ => .iterate fun _ => continued_smooth ih).nested

theorem ending_smooth (smooth : inner.Smooth) (flat : parser.Flat) :
    (ending inner parser).Meets parser (.smooth 1 parser) := by
  refine (smooth.expression _ parser flat).bind_smooth flat fun _ parser flat => ?_
  refine .bind_pure_smooth ?_
  refine .skip (fun _ => ⟨fun index before => ?_, .nil⟩) fun _ => .none
  omega

theorem statementForm_smooth (form : StatementForm) (smooth : inner.Smooth) (flat : parser.Flat)
    (other : form ≠ .expression → parser.current.kind ≠ .semicolon) :
    (form.read inner parser).Meets parser (.smooth 1 parser) := by
  cases form with
  | binding =>
      have advanced := Meets.advance_smooth (other (by decide))
      refine advanced.bind_smooth flat fun _ parser flat => ?_
      refine (Smooth.identifier parser flat).bind_smooth flat fun _ parser flat => ?_
      refine (Smooth.expect (by decide) parser flat).bind_smooth flat fun _ parser flat => ?_
      exact (ending_smooth smooth flat).bind_pure_smooth
  | result =>
      have advanced := Meets.advance_smooth (other (by decide))
      refine advanced.bind_smooth flat fun _ parser flat => ?_
      exact (ending_smooth smooth flat).bind_pure_smooth
  | expression =>
      show (expressionStatement inner parser).Meets parser (.smooth 1 parser)
      rw [expressionStatement_apply]
      exact (ending_smooth smooth flat).bind_pure_smooth

/-- A statement that fails does so before any semicolon, and one that is read takes none but the one
that ends it. -/
theorem statementBody_smooth (smooth : inner.Smooth) (flat : parser.Flat) :
    (statementBody inner parser).Meets parser (.smooth 1 parser) := by
  rw [statementBody_apply, flat.standard.table]
  split
  · rename_i registered
    exact statementForm_smooth _ smooth flat fun _ =>
      (Table.standard_statementForm_kind registered).2
  · exact statementForm_smooth .expression smooth flat fun impossible => absurd rfl impossible

end Routine

/-- All that is wrong but integers that are too large. -/
def failures (found : List Diagnostic) : List Diagnostic :=
  found.filter fun diagnostic => ¬ diagnostic.IsOutOfRange

section Failures

variable {found others : List Diagnostic} {diagnostic : Diagnostic}

@[simp] theorem failures_append : failures (found ++ others) = failures found ++ failures others :=
  List.filter_append ..

theorem Clean.failures_eq_nil (clean : Clean found) : failures found = [] :=
  List.filter_eq_nil_iff.2 fun diagnostic member => by simpa using clean diagnostic member

theorem failures_singleton (other : ¬ diagnostic.IsOutOfRange) :
    failures [diagnostic] = [diagnostic] := by
  simp [failures, other]

end Failures

namespace Token

/-- A statement ends with the token, or another one begins with it. -/
def separates (token : Token) : Bool :=
  token.kind ∈ [.semicolon, .letKeyword, .returnKeyword]

/-- The token is kept, whatever failed before it. -/
def resumes (token : Token) : Bool :=
  token.kind ∈ [.endOfInput, .letKeyword, .returnKeyword]

theorem resumes_iff {token : Token} :
    token.resumes = true ↔ token.kind ∈ [.endOfInput, .letKeyword, .returnKeyword] :=
  decide_eq_true_iff

/-- What is kept is a keyword, unless the input ends. -/
theorem mem_of_resumes {token : Token} (resumes : token.resumes = true)
    (present : token.kind ≠ .endOfInput) : token.kind ∈ [.letKeyword, .returnKeyword] :=
  (List.mem_cons.1 (resumes_iff.1 resumes)).resolve_left present

end Token

/-- Tokens that come first or follow a semicolon, up to the next semicolon.  A keyword that begins
a statement can only be the first of them. -/
structure Stretch (token : Nat → Token) (first last : Nat) : Prop where
  begins : first = 0 ∨ (token (first - 1)).kind = .semicolon
  ordered : first ≤ last
  ends : (token last).kind = .semicolon
  single : ∀ index < last, first ≤ index → (token index).kind ≠ .semicolon
  plain : ∀ index ≤ last, first < index → (token index).kind ∉ [.letKeyword, .returnKeyword]

namespace Stretch

variable {token : Nat → Token} {first last count : Nat}

instance : Decidable (Stretch token first last) :=
  decidable_of_iff ((first = 0 ∨ (token (first - 1)).kind = .semicolon) ∧ first ≤ last ∧
      (token last).kind = .semicolon ∧
      (∀ index < last, first ≤ index → (token index).kind ≠ .semicolon) ∧
      ∀ index ≤ last, first < index → (token index).kind ∉ [.letKeyword, .returnKeyword])
    ⟨fun ⟨begins, ordered, ends, single, plain⟩ => ⟨begins, ordered, ends, single, plain⟩,
      fun ⟨begins, ordered, ends, single, plain⟩ => ⟨begins, ordered, ends, single, plain⟩⟩

/-- What is left of a stretch, or all of it, is one of the tokens that are left. -/
theorem drop (stretch : Stretch token first last) (reaches : count ≤ last) :
    Stretch (fun index => token (count + index)) (first - count) (last - count) where
  begins := by
    by_cases within : first ≤ count
    · exact .inl (Nat.sub_eq_zero_of_le within)
    · refine .inr ?_
      have same : count + (first - count - 1) = first - 1 := by omega
      rw [same]
      exact stretch.begins.resolve_left (by omega)
  ordered := Nat.sub_le_sub_right stretch.ordered count
  ends := by
    rw [Nat.add_sub_cancel' reaches]
    exact stretch.ends
  single index before after := stretch.single _ (by omega) (by omega)
  plain index upto after := stretch.plain _ (by omega) (by omega)

end Stretch

namespace Parser

/-- What a call for a statement takes and records, and at which token the statement failed, if it
did.  No semicolon comes before that token, and what is skipped after it goes up to a semicolon or
to a token that is kept. -/
inductive Stride (parser : Parser) (count : Nat) : List Diagnostic → List Nat → Prop
  | kept {found : List Diagnostic} (smooth : parser.Smooth 1 count found) :
      Stride parser count found []
  | skipped {found : List Diagnostic} {diagnostic : Diagnostic} {stop : Nat}
      (smooth : parser.Smooth 0 stop found) (marks : diagnostic.Marks (parser.token stop))
      (reached : stop ≤ count)
      (lands : (parser.token (count - 1)).kind = .semicolon ∨
        (parser.token count).resumes = true) :
      Stride parser count (found ++ [diagnostic]) [stop]

/-- The failures were found at tokens that are at most one more than those that separate
statements, and at most one of them is in a stretch. -/
structure Sparse (parser : Parser) (found : List Diagnostic) (stops : List Nat) : Prop where
  places : (failures found).map (·.position) = stops.map fun stop => (parser.token stop).span.start
  few : stops.length + parser.current.resumes.toNat ≤ parser.pending.countP Token.separates + 1
  apart : ∀ first last, Stretch parser.token first last →
    stops.countP (fun stop => first ≤ stop ∧ stop ≤ last) ≤ 1

end Parser

/-- With no braces ahead, a failed statement is skipped up to a semicolon, or up to a token that
is kept. -/
theorem Routine.statementOrSkip_strides {parser : Parser} (flat : parser.Flat)
    (present : parser.current.kind ≠ .endOfInput) :
    ∃ result count found stops,
      statementOrSkip parser = .ok result (parser.beyond count found) ∧
        0 < count ∧ count ≤ parser.pending.length ∧ parser.Stride count found stops := by
  have standard := flat.standard
  have smooth := statementBody_smooth (levels_smooth (nestingLimit - parser.depth)) flat
  have proper := statementBody_proper (levels_proper (nestingLimit - parser.depth)) standard
  have met : (statementOrSkip parser).Meets parser
      { ok := fun _ count found => ∃ stops, parser.Stride count found stops
        failed := fun _ _ _ => True
        endless := True } := by
    refine (proper.and smooth).recovering ?_ ?_ fun _ => trivial
    · intro statement count found both
      exact ⟨[], .kept both.2⟩
    · intro diagnostic stop found both
      obtain ⟨⟨_, marks⟩, unbroken⟩ := both
      refine ⟨[stop], .skipped unbroken marks Parser.le_resumed ?_⟩
      refine standard.resumed_lands.imp_right fun kept => Token.resumes_iff.2 ?_
      exact (List.mem_cons.1 kept).resolve_left fun closes =>
        flat.plain (parser.resumed stop) (by simp [closes])
  obtain ⟨result, count, found, run, positive, inside⟩ := statementOrSkip_certain standard present
  rw [run] at met
  obtain ⟨stops, stride⟩ := met.of_ok
  exact ⟨result, count, found, stops, run, positive, inside, stride⟩

namespace Parser

variable {parser after : Parser} {count : Nat} {found others : List Diagnostic}
  {stops later : List Nat}

theorem resumes_le (present : parser.current.kind ≠ .endOfInput) (standard : parser.Standard)
    (positive : 0 < count) :
    parser.current.resumes.toNat ≤ (parser.taken count).countP Token.separates := by
  cases resumes : parser.current.resumes with
  | false => exact Nat.zero_le _
  | true =>
      refine List.countP_pos_iff.2 ⟨parser.current, ?_, ?_⟩
      · obtain ⟨more, rfl⟩ := Nat.exists_eq_add_of_le positive
        rw [taken_add [], standard.taken_one present]
        exact List.mem_cons_self
      · exact decide_eq_true (List.mem_cons_of_mem _ (Token.mem_of_resumes resumes present))

namespace Stride

theorem places (stride : parser.Stride count found stops) :
    (failures found).map (·.position) = stops.map fun stop => (parser.token stop).span.start := by
  cases stride with
  | kept smooth => rw [smooth.clean.failures_eq_nil]; rfl
  | skipped smooth marks _ _ =>
      rw [failures_append, smooth.clean.failures_eq_nil, failures_singleton marks.cause]
      simp [marks.position]

/-- A failure is paid for by a separator that is taken, or by the token that is kept. -/
theorem pays (stride : parser.Stride count found stops) (standard : parser.Standard)
    (present : parser.current.kind ≠ .endOfInput) (positive : 0 < count)
    (inside : count ≤ parser.pending.length) :
    stops.length + parser.current.resumes.toNat ≤
      (parser.taken count).countP Token.separates + (parser.token count).resumes.toNat := by
  have paid := resumes_le present standard positive
  cases stride with
  | kept _ =>
      rw [List.length_nil]
      omega
  | skipped _ _ _ lands =>
      rw [List.length_singleton]
      rcases lands with semicolon | kept
      · obtain ⟨before, rfl⟩ := Nat.exists_eq_add_of_le' positive
        rw [Nat.add_sub_cancel] at semicolon
        have split : parser.taken (before + 1) = parser.taken before ++ [parser.token before] := by
          rw [taken, List.take_add_one, token, List.getElem?_eq_getElem inside]
          rfl
        have last : (parser.token before).separates = true := by
          rw [Token.separates, semicolon]
          rfl
        rw [split, List.countP_append, List.countP_singleton, if_pos last]
        -- A keyword that comes first is another token than the semicolon.
        have others : parser.current.resumes.toNat ≤
            (parser.taken before).countP Token.separates := by
          rcases Nat.eq_zero_or_pos before with rfl | earlier
          · rw [← token_zero, Token.resumes, semicolon]
            exact Nat.zero_le _
          · exact resumes_le present standard earlier
        omega
      · rw [kept, Bool.toNat_true]
        omega

/-- A call that does not reach the end of a stretch finds no failure in it. -/
theorem countP_eq_zero {first last : Nat} (stride : parser.Stride count found stops)
    (standard : parser.Standard) (positive : 0 < count)
    (stretch : Stretch parser.token first last) (reaches : count ≤ last) :
    stops.countP (fun stop => first ≤ stop ∧ stop ≤ last) = 0 := by
  cases stride with
  | kept _ => rfl
  | @skipped found diagnostic stop smooth _ reached lands =>
      have outside : ¬ (first ≤ stop ∧ stop ≤ last) := by
        rintro ⟨after, _⟩
        by_cases within : first < count
        · -- A statement that failed in the stretch would be skipped to the end of it.
          rcases lands with semicolon | kept
          · exact stretch.single (count - 1) (by omega) (by omega) semicolon
          · have unfinished : (parser.token count).kind ≠ .endOfInput := by
              refine standard.kind_ne_endOfInput (Nat.lt_of_le_of_lt reaches ?_)
              exact standard.lt_length (by simp [stretch.ends])
            exact stretch.plain count reaches within (Token.mem_of_resumes kept unfinished)
        · -- The semicolon before the stretch would have been passed before the failure.
          have semicolon := stretch.begins.resolve_left (by omega)
          exact smooth.unbroken (first - 1) (by omega) semicolon
      simp [outside]

end Stride

namespace Sparse

theorem nil : parser.Sparse [] [] := by
  refine ⟨rfl, ?_, fun _ _ _ => Nat.zero_le _⟩
  have bound := parser.current.resumes.toNat_le
  simp only [List.length_nil]
  omega

/-- What a call records is added to what the later ones do. -/
theorem again (stride : parser.Stride count found stops) (standard : parser.Standard)
    (present : parser.current.kind ≠ .endOfInput) (positive : 0 < count)
    (inside : count ≤ parser.pending.length)
    (rest : (parser.beyond count found).Sparse others later) :
    parser.Sparse (found ++ others) (stops ++ later.map (count + ·)) where
  places := by
    rw [failures_append, List.map_append, List.map_append, stride.places, rest.places]
    simp
  few := by
    have paid := stride.pays standard present positive inside
    have few := rest.few
    have split : (parser.taken count).countP Token.separates +
        (parser.pending.drop count).countP Token.separates =
          parser.pending.countP Token.separates := by
      rw [← List.countP_append, taken, List.take_append_drop]
    rw [current_beyond, beyond_pending] at few
    rw [List.length_append, List.length_map]
    omega
  apart first last stretch := by
    rw [List.countP_append, List.countP_map]
    by_cases reaches : count ≤ last
    · -- What is left of the stretch lies among the tokens of the later calls.
      have tokens : (parser.beyond count found).token = fun index => parser.token (count + index) :=
        funext token_beyond
      have shifted := stretch.drop reaches
      rw [← tokens] at shifted
      rw [stride.countP_eq_zero standard positive stretch reaches, Nat.zero_add]
      refine Nat.le_trans (List.countP_mono_left fun stop _ within => ?_) (rest.apart _ _ shifted)
      simp only [Function.comp_apply, decide_eq_true_eq] at within ⊢
      omega
    · have none : later.countP
          ((fun stop => decide (first ≤ stop ∧ stop ≤ last)) ∘ (count + ·)) = 0 := by
        refine List.countP_eq_zero.2 fun stop _ within => ?_
        simp only [Function.comp_apply, decide_eq_true_eq] at within
        omega
      rw [none, Nat.add_zero]
      refine Nat.le_trans List.countP_le_length ?_
      cases stride <;> simp

end Sparse

/-- However many calls it takes, the failures are sparse. -/
theorem Calls.sparse {results : List (Option Statement)} (calls : parser.Calls results after)
    (flat : parser.Flat) :
    ∃ found stops, after.diagnostics.toList = parser.diagnostics.toList ++ found ∧
      parser.Sparse found stops := by
  induction calls with
  | finished finished =>
      exact ⟨[], [], by simp, .nil⟩
  | again unfinished call rest ih =>
      have present := atEnd_eq_false_iff.1 unfinished
      obtain ⟨result, count, found, stops, run, positive, inside, stride⟩ :=
        Routine.statementOrSkip_strides flat present
      rw [run] at call
      cases call
      obtain ⟨others, later, recorded, sparse⟩ := ih flat.beyond
      refine ⟨found ++ others, stops ++ later.map (count + ·), ?_,
        .again stride flat.standard present positive inside sparse⟩
      rw [recorded, beyond_diagnostics, List.append_assoc]

end Parser

/-- One of the tokens from the one number to the other starts at the place. -/
def Position.Within (token : Nat → Token) (first last : Nat) (position : Position) : Prop :=
  ∃ index ≤ last, first ≤ index ∧ (token index).span.start = position

instance {token : Nat → Token} {first last : Nat} :
    DecidablePred (Position.Within token first last) := fun position =>
  inferInstanceAs (Decidable (∃ index ≤ last, first ≤ index ∧
    (token index).span.start = position))

/-- As far as an offset can be held, only the tokens of a stretch start within it. -/
theorem Stretch.of_within {source : String} {file : Option String} {first last stop : Nat}
    (stretch : Stretch (nthToken source file) first last)
    (small : source.utf8ByteSize ≤ Position.lastOffset)
    (within : (nthToken source file stop).span.start.Within (nthToken source file) first last) :
    first ≤ stop ∧ stop ≤ last := by
  obtain ⟨index, upto, after, same⟩ := within
  have standard := Parser.ofSource_standard source file
  have closed : (nthToken source file last).kind ≠ .endOfInput := by simp [stretch.ends]
  have present : (nthToken source file index).kind ≠ .endOfInput := by
    rw [nthToken_eq] at closed ⊢
    exact standard.kind_ne_endOfInput (Nat.lt_of_le_of_lt upto (standard.lt_length closed))
  obtain rfl := nthToken_start_injective small present same
  exact ⟨after, upto⟩

/-- Where a source has no braces, failures are found no more often than there are semicolons and
keywords that begin statements, but once.  Up to a semicolon there is one at most, where no such
keyword comes in between.  As far as an offset can be held, their places say so too. -/
theorem errors_do_not_cascade {source : String} {file : Option String}
    (flat : ∀ token ∈ tokenize source file, token.kind ∉ [.openCurly, .closeCurly]) :
    ∃ program after, parse source file = .ok program after ∧
      (failures after.diagnostics.toList).length ≤
        (tokenize source file).countP (·.kind ∈ [.semicolon, .letKeyword, .returnKeyword]) + 1 ∧
      (∃ stops : List Nat,
        (failures after.diagnostics.toList).map (·.position) =
          stops.map (fun stop => (nthToken source file stop).span.start) ∧
        ∀ first last, Stretch (nthToken source file) first last →
          stops.countP (fun stop => first ≤ stop ∧ stop ≤ last) ≤ 1) ∧
      (source.utf8ByteSize < 4294967296 →
        ∀ first last, Stretch (nthToken source file) first last →
          (failures after.diagnostics.toList).countP
            (·.position.Within (nthToken source file) first last) ≤ 1) := by
  have standard := Parser.ofSource_standard source file
  have plain : (Parser.ofSource source file).Flat :=
    ⟨standard, fun index => flat _ (Parser.token_mem_tokenize index)⟩
  obtain ⟨results, after, parsed, calls⟩ := Routine.program_calls standard.sound
  obtain ⟨found, stops, recorded, sparse⟩ := calls.sparse plain
  obtain rfl : after.diagnostics.toList = found := recorded
  have places := sparse.places
  have apart := sparse.apart
  rw [← funext (nthToken_eq source file)] at apart
  simp only [← nthToken_eq] at places
  refine ⟨_, after, parsed, ?_, ⟨stops, places, apart⟩, fun small first last stretch => ?_⟩
  · have few := sparse.few
    have length := congrArg List.length places
    rw [List.length_map, List.length_map] at length
    have more : (Parser.ofSource source file).pending.countP Token.separates ≤
        (tokenize source file).countP Token.separates := by
      rw [Parser.tokenize_eq, List.countP_append]
      exact Nat.le_add_right _ _
    show _ ≤ (tokenize source file).countP Token.separates + 1
    omega
  · have mapped := congrArg
      (List.countP fun place => decide (place.Within (nthToken source file) first last)) places
    rw [List.countP_map, List.countP_map] at mapped
    refine Nat.le_trans (Nat.le_of_eq mapped) (Nat.le_trans ?_ (apart first last stretch))
    refine List.countP_mono_left fun stop _ within => ?_
    simp only [Function.comp_apply, decide_eq_true_eq] at within ⊢
    exact stretch.of_within (Nat.le_of_lt_succ small) within

/-- Two statements are read before one fails, a semicolon stands alone, and a number is too
large. -/
theorem errors_do_not_cascade_garbage :
    (∀ token ∈ tokenize "a 1 !/*5; ; let x 5; 99999999999999999999 7 +" none,
      token.kind ∉ [.openCurly, .closeCurly]) ∧
    Stretch (nthToken "a 1 !/*5; ; let x 5; 99999999999999999999 7 +" none) 0 6 ∧
    ∃ program after,
      parse "a 1 !/*5; ; let x 5; 99999999999999999999 7 +" none = .ok program after ∧
        program.statements.length = 3 ∧ after.diagnostics.size = 5 ∧
        (failures after.diagnostics.toList).length ≤ 5 ∧
        (failures after.diagnostics.toList).countP (·.position.Within
          (nthToken "a 1 !/*5; ; let x 5; 99999999999999999999 7 +" none) 0 6) ≤ 1 := by
  have flat : ∀ token ∈ tokenize "a 1 !/*5; ; let x 5; 99999999999999999999 7 +" none,
      token.kind ∉ [.openCurly, .closeCurly] := by decide +kernel
  have stretch : Stretch (nthToken "a 1 !/*5; ; let x 5; 99999999999999999999 7 +" none) 0 6 := by
    decide +kernel
  have counts : (match parse "a 1 !/*5; ; let x 5; 99999999999999999999 7 +" none with
      | .ok program after => decide (program.statements.length = 3 ∧ after.diagnostics.size = 5)
      | _ => false) = true := by decide +kernel
  have separators : (tokenize "a 1 !/*5; ; let x 5; 99999999999999999999 7 +" none).countP
      (·.kind ∈ [.semicolon, .letKeyword, .returnKeyword]) = 4 := by decide +kernel
  obtain ⟨program, after, parsed, few, _, apart⟩ := errors_do_not_cascade flat
  rw [parsed] at counts
  rw [separators] at few
  obtain ⟨kept, recorded⟩ := of_decide_eq_true counts
  exact ⟨flat, stretch, program, after, parsed, kept, recorded, few,
    apart (by decide) _ _ stretch⟩

end Monkey
