import Monkey.Proofs.Parser.Boundary

namespace Monkey

/-! Every routine of the language ends, and consumes only tokens that are there.

An expression and a block consume at least one token and never end with a semicolon.
A routine that fails does so at the token where it stopped, and never over the size of
an integer, which is recorded on the spot.
-/

namespace Diagnostic

/-- An integer is too large, which leaves the statement around it as it is. -/
def IsOutOfRange (diagnostic : Diagnostic) : Prop :=
  ∃ text, diagnostic.cause = .integerOutOfRange text

/-- The diagnostic of a routine that fails at this token. -/
structure Marks (diagnostic : Diagnostic) (token : Token) : Prop where
  position : diagnostic.position = token.span.start
  cause : ¬ diagnostic.IsOutOfRange

end Diagnostic

/-- Tokens of which the last is not a semicolon. -/
def Unterminated (tokens : List Token) : Prop :=
  ∃ before last, tokens = before ++ [last] ∧ last.kind ≠ .semicolon

namespace Unterminated

theorem one {token : Token} (other : token.kind ≠ .semicolon) : Unterminated [token] :=
  ⟨[], token, rfl, other⟩

theorem prepend {first second : List Token} (ends : Unterminated second) :
    Unterminated (first ++ second) := by
  obtain ⟨before, last, rfl, other⟩ := ends
  exact ⟨first ++ before, last, by simp, other⟩

theorem ne_nil {tokens : List Token} (ends : Unterminated tokens) : tokens ≠ [] := by
  obtain ⟨before, last, rfl, _⟩ := ends
  simp

end Unterminated

namespace Contract

variable {α : Type}

/-- Success after consuming tokens of some shape, or failure where the routine stopped. -/
def proper (shape : α → List Token → Prop) (parser : Parser) : Contract α where
  ok value count _ := count ≤ parser.pending.length ∧ shape value (parser.taken count)
  failed diagnostic count _ :=
    count ≤ parser.pending.length ∧ diagnostic.Marks (parser.token count)
  endless := False

end Contract

namespace Outcome.Meets

variable {α β : Type} {parser : Parser}

theorem rest_proper {outcome : Outcome α} {second whole : α → List Token → Prop} {count : Nat}
    {found : List Diagnostic} (inside : count ≤ parser.pending.length)
    (joins : ∀ value tokens, second value tokens → whole value (parser.taken count ++ tokens))
    (met : outcome.Meets (parser.beyond count found) (.proper second (parser.beyond count found))) :
    outcome.Meets (parser.beyond count found)
      ((Contract.proper whole parser).rest count found) := by
  refine met.mono ?_ ?_ id
  · intro value more others kept
    obtain ⟨bound, shape⟩ := kept
    simp only [Parser.beyond_pending, List.length_drop] at bound
    refine ⟨by omega, ?_⟩
    rw [Parser.taken_add found]
    exact joins _ _ shape
  · intro diagnostic more others kept
    obtain ⟨bound, marks⟩ := kept
    simp only [Parser.beyond_pending, List.length_drop] at bound
    exact ⟨by omega, by simpa using marks⟩

theorem bind_proper {routine : Routine α} {next : α → Routine β} {first : α → List Token → Prop}
    {whole : β → List Token → Prop} (standard : parser.Standard)
    (met : (routine parser).Meets parser (.proper first parser))
    (continues : ∀ (value : α) (parser : Parser), parser.Standard →
      (next value parser).Meets parser
        (.proper (fun result after => ∀ before, first value before → whole result (before ++ after))
          parser)) :
    ((routine >>= next) parser).Meets parser (.proper whole parser) := by
  refine met.bind (fun _ _ _ kept => kept) id ?_
  intro value count found kept
  obtain ⟨inside, shape⟩ := kept
  exact rest_proper inside (fun result tokens joins => joins _ shape)
    (continues value _ standard.beyond)

theorem mono_proper {outcome : Outcome α} {weak strong : α → List Token → Prop}
    (met : outcome.Meets parser (.proper strong parser))
    (kept : ∀ value tokens, strong value tokens → weak value tokens) :
    outcome.Meets parser (.proper weak parser) :=
  met.mono (fun _ _ _ shape => ⟨shape.1, kept _ _ shape.2⟩) (fun _ _ _ marks => marks) id

/-- The shape of what is consumed first does not matter for how it all ends. -/
theorem bind_unterminated {routine : Routine α} {next : α → Routine β}
    {first : α → List Token → Prop} (standard : parser.Standard)
    (met : (routine parser).Meets parser (.proper first parser))
    (continues : ∀ (value : α) (parser : Parser), parser.Standard →
      (next value parser).Meets parser (.proper (fun _ => Unterminated) parser)) :
    ((routine >>= next) parser).Meets parser (.proper (fun _ => Unterminated) parser) :=
  bind_proper standard met fun value parser standard =>
    (continues value parser standard).mono_proper fun _ _ ends _ _ => ends.prepend

theorem bind_nonempty {routine : Routine α} {next : α → Routine β}
    {first : α → List Token → Prop} (standard : parser.Standard)
    (met : (routine parser).Meets parser (.proper first parser))
    (continues : ∀ (value : α) (parser : Parser), parser.Standard →
      (next value parser).Meets parser (.proper (fun _ tokens => tokens ≠ []) parser)) :
    ((routine >>= next) parser).Meets parser (.proper (fun _ tokens => tokens ≠ []) parser) :=
  bind_proper standard met fun value parser standard =>
    (continues value parser standard).mono_proper fun _ _ present _ _ =>
      List.append_ne_nil_of_right_ne_nil _ present

theorem pure_proper {shape : α → List Token → Prop} {value : α} (kept : shape value []) :
    ((Pure.pure value : Routine α) parser).Meets parser (.proper shape parser) :=
  .pure ⟨Nat.zero_le _, kept⟩

theorem bind_pure_proper {routine : Routine α} {value : α → β} {first : α → List Token → Prop}
    {shape : β → List Token → Prop} (met : (routine parser).Meets parser (.proper first parser))
    (joins : ∀ result tokens, first result tokens → shape (value result) tokens) :
    ((routine >>= fun result => Pure.pure (value result)) parser).Meets parser
      (.proper shape parser) := by
  refine met.bind (fun _ _ _ kept => kept) id ?_
  intro result count found kept
  obtain ⟨inside, kept⟩ := kept
  exact .pure ⟨inside, joins result _ kept⟩

theorem fail_proper {shape : α → List Token → Prop} {cause : Cause}
    (syntactic : ∀ text, cause ≠ .integerOutOfRange text) :
    (Routine.fail cause parser : Outcome α).Meets parser (.proper shape parser) :=
  .fail ⟨Nat.zero_le _, rfl, fun ⟨text, same⟩ => syntactic text same⟩

theorem advance_proper (standard : parser.Standard)
    (present : parser.current.kind ≠ .endOfInput) :
    (Routine.advance parser).Meets parser
      (.proper (fun token tokens => tokens = [token] ∧ token = parser.current) parser) :=
  .advance ⟨standard.lt_length present, standard.taken_one present, rfl⟩

theorem expect_proper {kind : Kind} (standard : parser.Standard) (other : kind ≠ .endOfInput) :
    (Routine.expect kind parser).Meets parser
      (.proper (fun token tokens => tokens = [token] ∧ token.kind = kind) parser) := by
  refine .expect ?_ ?_
  · intro present
    have more : parser.current.kind ≠ .endOfInput := by rwa [present]
    exact ⟨standard.lt_length more, standard.taken_one more, present⟩
  · intro _
    exact ⟨Nat.zero_le _, rfl, fun ⟨text, same⟩ => by cases same⟩

def skipShape (kind : Kind) : Bool → List Token → Prop
  | true, tokens => ∃ token, tokens = [token] ∧ token.kind = kind
  | false, tokens => tokens = []

theorem skip_proper {kind : Kind} (standard : parser.Standard) (other : kind ≠ .endOfInput) :
    (Routine.skip kind parser).Meets parser (.proper (skipShape kind) parser) := by
  refine .skip ?_ (fun _ => ⟨Nat.zero_le _, rfl⟩)
  intro present
  have more : parser.current.kind ≠ .endOfInput := by rwa [present]
  exact ⟨standard.lt_length more, _, standard.taken_one more, present⟩

/-- What is consumed begins with the current token. -/
theorem proper_with_head {outcome : Outcome α} {shape : α → List Token → Prop}
    (met : outcome.Meets parser (.proper shape parser)) :
    outcome.Meets parser (.proper (fun value tokens => shape value tokens ∧
      ∀ first ∈ tokens.head?, first = parser.current) parser) := by
  refine met.mono ?_ (fun _ _ _ marks => marks) id
  intro value count found kept
  exact ⟨kept.1, kept.2, fun first member =>
    Parser.current_of_leading (List.take_prefix _ _) member⟩

/-- A round keeps what holds of the value and of what was consumed so far, and consumes at least
one token if another round follows. -/
def roundKeeps (invariant : α → List Token → Prop) (whole : β → List Token → Prop) (value : α) :
    Round α β → List Token → Prop
  | .again next, tokens =>
      tokens ≠ [] ∧ ∀ before, invariant value before → invariant next (before ++ tokens)
  | .done result, tokens => ∀ before, invariant value before → whole result (before ++ tokens)

theorem iterate_keeps {round : α → Routine (Round α β)} {whole : β → List Token → Prop}
    (invariant : α → List Token → Prop) (standard : parser.Standard)
    (step : ∀ (value : α) (parser : Parser), parser.Standard →
      (round value parser).Meets parser (.proper (roundKeeps invariant whole value) parser))
    {value : α} (start : invariant value []) :
    (Routine.iterate round value parser).Meets parser (.proper whole parser) := by
  refine .iterate (fun value count _ => count ≤ parser.pending.length ∧
    invariant value (parser.taken count)) ?_ ⟨Nat.zero_le _, start⟩
  intro value count found kept
  obtain ⟨inside, before⟩ := kept
  refine (step value _ standard.beyond).mono ?_ ?_ id
  · intro decision more others kept
    obtain ⟨bound, shape⟩ := kept
    simp only [Parser.beyond_pending, List.length_drop] at bound
    cases decision with
    | again next =>
        refine ⟨.inl shape.1, fun _ => ⟨by omega, ?_⟩⟩
        rw [Parser.taken_add found]
        exact shape.2 _ before
    | done result =>
        refine ⟨by omega, ?_⟩
        rw [Parser.taken_add found]
        exact shape _ before
  · intro diagnostic more others kept
    obtain ⟨bound, marks⟩ := kept
    simp only [Parser.beyond_pending, List.length_drop] at bound
    exact ⟨by omega, by simpa using marks⟩

/-- A loop that begins with what is read first. -/
theorem bind_iterate_keeps {routine : Routine α} {round : α → Routine (Round α β)}
    {invariant : α → List Token → Prop} {whole : β → List Token → Prop}
    (standard : parser.Standard) (met : (routine parser).Meets parser (.proper invariant parser))
    (step : ∀ (value : α) (parser : Parser), parser.Standard →
      (round value parser).Meets parser (.proper (roundKeeps invariant whole value) parser)) :
    ((routine >>= Routine.iterate round) parser).Meets parser (.proper whole parser) := by
  apply bind_proper standard met
  intro first parser standard
  refine .iterate_keeps (fun value tokens =>
    ∀ before, invariant first before → invariant value (before ++ tokens)) standard ?_
    fun before kept => by rwa [List.append_nil]
  intro value parser standard
  refine (step value parser standard).mono_proper ?_
  intro decision tokens kept
  cases decision with
  | again next =>
      refine ⟨kept.1, fun earlier joins before begins => ?_⟩
      rw [← List.append_assoc]
      exact kept.2 _ (joins before begins)
  | done result =>
      intro earlier joins before begins
      rw [← List.append_assoc]
      exact kept _ (joins before begins)

/-- What a round consumes: at least one token if another round follows. -/
def roundShape (again done : List Token → Prop) : Round α β → List Token → Prop
  | .again _, tokens => tokens ≠ [] ∧ again tokens
  | .done _, tokens => done tokens

theorem iterate_proper {round : α → Routine (Round α β)} {again done whole : List Token → Prop}
    (standard : parser.Standard)
    (step : ∀ (value : α) (parser : Parser), parser.Standard →
      (round value parser).Meets parser (.proper (roundShape again done) parser))
    (last : ∀ tokens, done tokens → whole tokens)
    (joins : ∀ before after, again before → whole after → whole (before ++ after)) {value : α} :
    (Routine.iterate round value parser).Meets parser (.proper (fun _ => whole) parser) := by
  refine .iterate_keeps (fun _ before => ∀ tokens, whole tokens → whole (before ++ tokens)) standard
    ?_ fun _ kept => kept
  intro value parser standard
  refine (step value parser standard).mono_proper ?_
  intro decision tokens shape
  cases decision with
  | again next =>
      refine ⟨shape.1, fun before kept others rest => ?_⟩
      rw [List.append_assoc]
      exact kept _ (joins _ _ shape.2 rest)
  | done result => exact fun before kept => kept _ (last _ shape)

end Outcome.Meets

namespace Routine

open Outcome

variable {α : Type} {parser : Parser} {inner : Nested}

theorem separatedRound_proper {item : Routine α} {items : Array α} (standard : parser.Standard)
    (proper : ∀ parser : Parser, parser.Standard →
      (item parser).Meets parser (.proper (fun _ => Unterminated) parser)) :
    (separatedRound item items parser).Meets parser
      (.proper (Meets.roundShape (fun _ => True) Unterminated) parser) := by
  apply Meets.bind_proper standard (proper parser standard)
  intro item parser standard
  apply Meets.bind_proper standard (.skip_proper standard (by decide))
  intro skipped parser standard
  cases skipped with
  | true =>
      apply Meets.pure_proper
      intro comma _ tokens ends
      exact ⟨by simp [ends.ne_nil], trivial⟩
  | false =>
      apply Meets.pure_proper
      intro _ same tokens ends
      subst same
      show Unterminated (tokens ++ [])
      rwa [List.append_nil]

theorem separated_proper {item : Routine α} (standard : parser.Standard)
    (proper : ∀ parser : Parser, parser.Standard →
      (item parser).Meets parser (.proper (fun _ => Unterminated) parser)) :
    (separated item parser).Meets parser (.proper (fun _ => Unterminated) parser) := by
  rw [separated_eq]
  exact .iterate_proper standard (fun _ _ standard => separatedRound_proper standard proper)
    (fun _ ends => ends) (fun _ _ _ ends => ends.prepend)

theorem enclosed_proper {item : Routine α} (standard : parser.Standard)
    (proper : ∀ parser : Parser, parser.Standard →
      (item parser).Meets parser (.proper (fun _ => Unterminated) parser)) :
    (enclosed item parser).Meets parser (.proper (fun _ => Unterminated) parser) := by
  apply Meets.bind_proper standard (.skip_proper standard (by decide))
  intro skipped parser standard
  cases skipped with
  | true =>
      apply Meets.pure_proper
      intro _ kept
      obtain ⟨closing, rfl, closes⟩ := kept
      exact .one (by simp [closes])
  | false =>
      refine (Meets.bind_unterminated standard (separated_proper standard proper) ?_).mono_proper
        fun _ _ ends _ _ => ends.prepend
      intro items parser standard
      apply Meets.bind_pure_proper (.expect_proper standard (by decide))
      intro closing tokens kept
      obtain ⟨rfl, closes⟩ := kept
      exact .one (by simp [closes])

theorem identifier_proper (standard : parser.Standard) :
    (identifier parser).Meets parser (.proper (fun _ => Unterminated) parser) := by
  apply Meets.bind_pure_proper (.expect_proper standard (by decide))
  intro token tokens kept
  obtain ⟨rfl, isName⟩ := kept
  exact .one (by simp [isName])

end Routine

structure Nested.Proper (inner : Nested) : Prop where
  expression : ∀ (power : Power) (parser : Parser), parser.Standard →
    (inner.expression power parser).Meets parser (.proper (fun _ => Unterminated) parser)
  block : ∀ parser : Parser, parser.Standard →
    (inner.block parser).Meets parser (.proper (fun _ => Unterminated) parser)

namespace Routine

open Outcome

variable {parser : Parser} {inner : Nested}

theorem atom_proper (standard : parser.Standard) (present : parser.current.kind ≠ .endOfInput)
    (other : parser.current.kind ≠ .semicolon) :
    (atom parser).Meets parser (.proper (fun _ => Unterminated) parser) := by
  rw [atom_apply]
  exact .ok ⟨standard.lt_length present, by rw [standard.taken_one present]; exact .one other⟩

theorem unary_proper (proper : inner.Proper) (standard : parser.Standard)
    (present : parser.current.kind ≠ .endOfInput) :
    (unary inner parser).Meets parser (.proper (fun _ => Unterminated) parser) := by
  apply Meets.bind_unterminated standard (.advance_proper standard present)
  intro token parser standard
  exact .bind_pure_proper (proper.expression _ _ standard) fun _ _ ends => ends

theorem group_proper (proper : inner.Proper) (standard : parser.Standard)
    (present : parser.current.kind ≠ .endOfInput) :
    (group inner parser).Meets parser (.proper (fun _ => Unterminated) parser) := by
  apply Meets.bind_unterminated standard (.advance_proper standard present)
  intro token parser standard
  apply Meets.bind_unterminated standard (proper.expression _ _ standard)
  intro value parser standard
  apply Meets.bind_pure_proper (.expect_proper standard (by decide))
  intro token tokens kept
  obtain ⟨rfl, closes⟩ := kept
  exact .one (by simp [closes])

theorem conditional_proper (proper : inner.Proper) (standard : parser.Standard)
    (present : parser.current.kind ≠ .endOfInput) :
    (conditional inner parser).Meets parser (.proper (fun _ => Unterminated) parser) := by
  apply Meets.bind_unterminated standard (.advance_proper standard present)
  intro token parser standard
  apply Meets.bind_unterminated standard (.expect_proper standard (by decide))
  intro opening parser standard
  apply Meets.bind_unterminated standard (proper.expression _ _ standard)
  intro condition parser standard
  apply Meets.bind_unterminated standard (.expect_proper standard (by decide))
  intro closing parser standard
  apply Meets.bind_proper standard (proper.block _ standard)
  intro consequence parser standard
  apply Meets.bind_proper standard (.skip_proper standard (by decide))
  intro skipped parser standard
  cases skipped with
  | true =>
      apply Meets.bind_pure_proper (proper.block _ standard)
      intro alternative tokens ends _ _ before _
      exact ends.prepend.prepend
  | false =>
      apply Meets.pure_proper
      intro _ same before ends
      subst same
      simpa using ends

theorem function_proper (proper : inner.Proper) (standard : parser.Standard)
    (present : parser.current.kind ≠ .endOfInput) :
    (function inner parser).Meets parser (.proper (fun _ => Unterminated) parser) := by
  apply Meets.bind_unterminated standard (.advance_proper standard present)
  intro token parser standard
  apply Meets.bind_unterminated standard (.expect_proper standard (by decide))
  intro opening parser standard
  apply Meets.bind_unterminated standard
    (enclosed_proper standard fun _ standard => identifier_proper standard)
  intro parameters parser standard
  exact .bind_pure_proper (proper.block _ standard) fun _ _ ends => ends

theorem binary_proper {left : Expr} {power : Power} (proper : inner.Proper)
    (standard : parser.Standard) (present : parser.current.kind ≠ .endOfInput) :
    (binary inner left power parser).Meets parser (.proper (fun _ => Unterminated) parser) := by
  apply Meets.bind_unterminated standard (.advance_proper standard present)
  intro token parser standard
  exact .bind_pure_proper (proper.expression _ _ standard) fun _ _ ends => ends

theorem call_proper {callee : Expr} (proper : inner.Proper) (standard : parser.Standard)
    (present : parser.current.kind ≠ .endOfInput) :
    (call inner callee parser).Meets parser (.proper (fun _ => Unterminated) parser) := by
  apply Meets.bind_unterminated standard (.advance_proper standard present)
  intro token parser standard
  exact .bind_pure_proper (enclosed_proper standard (proper.expression _))
    fun _ _ ends => ends

theorem leading_proper (proper : inner.Proper) (standard : parser.Standard) :
    (leading inner parser).Meets parser (.proper (fun _ => Unterminated) parser) := by
  rw [leading_apply, standard.table]
  cases registered : Table.standard.prefixForm parser.current.kind with
  | none => exact .fail_proper (by simp)
  | some form =>
      obtain ⟨present, other⟩ := Table.standard_prefixForm_kind registered
      cases form with
      | atom => exact atom_proper standard present other
      | unary => exact unary_proper proper standard present
      | group => exact group_proper proper standard present
      | conditional => exact conditional_proper proper standard present
      | function => exact function_proper proper standard present

theorem continued_proper {power : Power} {left : Expr} (proper : inner.Proper)
    (standard : parser.Standard) :
    (continued inner power left parser).Meets parser
      (.proper (Meets.roundShape Unterminated (· = [])) parser) := by
  rw [continued_apply, standard.table]
  cases registered : Table.standard.infixRule parser.current.kind with
  | none => exact .pure_proper rfl
  | some rule =>
      obtain ⟨present, _⟩ := Table.standard_infixRule_kind registered
      dsimp only
      split
      · have extended : (rule.form.read inner left rule.power parser).Meets parser
            (.proper (fun _ => Unterminated) parser) := by
          cases rule.form with
          | binary => exact binary_proper proper standard present
          | call => exact call_proper proper standard present
        exact .bind_pure_proper extended fun _ _ ends => ⟨ends.ne_nil, ends⟩
      · exact .pure_proper rfl

theorem expressionBody_proper {power : Power} (proper : inner.Proper)
    (standard : parser.Standard) :
    (expressionBody inner power parser).Meets parser (.proper (fun _ => Unterminated) parser) := by
  refine .bind_iterate_keeps standard (leading_proper proper standard) ?_
  intro left parser standard
  refine (continued_proper proper standard).mono_proper ?_
  intro decision tokens shape
  cases decision with
  | again next => exact ⟨shape.1, fun before _ => shape.2.prepend⟩
  | done result =>
      obtain rfl : tokens = [] := shape
      intro before ends
      rwa [List.append_nil]

theorem ending_proper (proper : inner.Proper) (standard : parser.Standard) :
    (ending inner parser).Meets parser (.proper (fun _ tokens => tokens ≠ []) parser) := by
  apply Meets.bind_proper standard (proper.expression _ _ standard)
  intro value parser standard
  apply Meets.bind_pure_proper (.skip_proper standard (by decide))
  intro skipped tokens shape before ends
  simp [ends.ne_nil]

theorem statementBody_proper (proper : inner.Proper) (standard : parser.Standard) :
    (statementBody inner parser).Meets parser (.proper (fun _ tokens => tokens ≠ []) parser) := by
  have expression : (expressionStatement inner parser).Meets parser
      (.proper (fun _ tokens => tokens ≠ []) parser) := by
    rw [expressionStatement_apply]
    exact .bind_pure_proper (ending_proper proper standard) fun _ _ kept => kept
  rw [statementBody_apply, standard.table]
  cases registered : Table.standard.statementForm parser.current.kind with
  | none => exact expression
  | some form =>
      obtain ⟨present, _⟩ := Table.standard_statementForm_kind registered
      cases form with
      | binding =>
          apply Meets.bind_nonempty standard (.advance_proper standard present)
          intro token parser standard
          apply Meets.bind_nonempty standard (identifier_proper standard)
          intro name parser standard
          apply Meets.bind_nonempty standard (.expect_proper standard (by decide))
          intro assignment parser standard
          exact .bind_pure_proper (ending_proper proper standard) fun _ _ kept => kept
      | result =>
          apply Meets.bind_nonempty standard (.advance_proper standard present)
          intro token parser standard
          exact .bind_pure_proper (ending_proper proper standard) fun _ _ kept => kept
      | expression => exact expression

end Routine

namespace Contract

def certain {α : Type} (shape : α → List Token → Prop) (parser : Parser) : Contract α where
  ok value count _ := count ≤ parser.pending.length ∧ shape value (parser.taken count)
  failed _ _ _ := False
  endless := False

end Contract

namespace Outcome.Meets

variable {α β : Type} {parser : Parser}

theorem proper_of_certain {outcome : Outcome α} {shape : α → List Token → Prop}
    (met : outcome.Meets parser (.certain shape parser)) :
    outcome.Meets parser (.proper shape parser) :=
  met.mono (fun _ _ _ kept => kept) (fun _ _ _ impossible => impossible.elim) id

end Outcome.Meets

namespace Routine

open Outcome

variable {parser : Parser} {inner : Nested}

/-- A statement that is kept is as it was read. -/
theorem recovering_keeps {statement : Routine Statement} {shape : Statement → List Token → Prop}
    (standard : parser.Standard) (present : parser.current.kind ≠ .endOfInput)
    (proper : (statement parser).Meets parser
      (.proper (fun tree tokens => tokens ≠ [] ∧ shape tree tokens) parser)) :
    (recovering statement parser).Meets parser
      (.certain (fun result tokens => tokens ≠ [] ∧ ∀ tree ∈ result, shape tree tokens)
        parser) := by
  refine proper.recovering ?_ ?_ id
  · intro tree count found kept
    refine ⟨kept.1, kept.2.1, fun other same => ?_⟩
    cases same
    exact kept.2.2
  · intro diagnostic count found kept
    have bound := standard.resumed_le present kept.1
    have unfinished := List.ne_nil_of_length_pos (standard.lt_length present)
    exact ⟨bound, Parser.taken_ne_nil Parser.resumed_pos unfinished, by simp⟩

theorem recovering_certain {statement : Routine Statement} (standard : parser.Standard)
    (present : parser.current.kind ≠ .endOfInput)
    (proper : (statement parser).Meets parser (.proper (fun _ tokens => tokens ≠ []) parser)) :
    (recovering statement parser).Meets parser
      (.certain (fun _ tokens => tokens ≠ []) parser) := by
  have read : (statement parser).Meets parser
      (.proper (fun _ tokens => tokens ≠ [] ∧ True) parser) :=
    proper.mono_proper fun _ _ nonempty => ⟨nonempty, trivial⟩
  exact (recovering_keeps standard present read).mono
    (fun _ _ _ kept => ⟨kept.1, kept.2.1⟩) (fun _ _ _ impossible => impossible) id

theorem statementsRound_certain {ends : Kind → Bool} {statements : Array Statement}
    (proper : inner.Proper) (finite : ends .endOfInput = true) (standard : parser.Standard) :
    (statementsRound ends (statementBody inner) statements parser).Meets parser
      (.certain (Meets.roundShape (fun _ => True) (fun _ => True)) parser) := by
  unfold statementsRound
  split
  · exact .pure ⟨Nat.zero_le _, trivial⟩
  · rename_i goesOn
    have present : parser.current.kind ≠ .endOfInput := by
      intro finished
      exact goesOn (by rw [finished, finite])
    refine (recovering_certain standard present (statementBody_proper proper standard)).bind
      (fun _ _ _ impossible => impossible) id ?_
    intro statement count found kept
    obtain ⟨inside, nonempty⟩ := kept
    cases statement <;> exact .pure ⟨inside, nonempty, trivial⟩

/-- Statements are read to the token that ends them, whatever is wrong with them. -/
theorem statementsUntil_certain {ends : Kind → Bool} (proper : inner.Proper)
    (finite : ends .endOfInput = true) (standard : parser.Standard) :
    (statementsUntil ends (statementBody inner) parser).Meets parser
      (.certain (fun _ _ => True) parser) := by
  rw [statementsUntil_eq]
  refine .iterate (fun _ count _ => count ≤ parser.pending.length) ?_ (Nat.zero_le _)
  intro statements count found inside
  refine (statementsRound_certain proper finite standard.beyond).mono ?_
    (fun _ _ _ impossible => impossible) id
  intro decision more others kept
  obtain ⟨bound, shape⟩ := kept
  simp only [Parser.beyond_pending, List.length_drop] at bound
  cases decision with
  | again next => exact ⟨.inl shape.1, fun _ => by omega⟩
  | done result => exact ⟨by omega, trivial⟩

theorem blockBody_proper (proper : inner.Proper) (standard : parser.Standard) :
    (blockBody inner parser).Meets parser (.proper (fun _ => Unterminated) parser) := by
  apply Meets.bind_unterminated standard (.expect_proper standard (by decide))
  intro opening parser standard
  apply Meets.bind_unterminated standard
    (statementsUntil_certain proper (by decide) standard).proper_of_certain
  intro statements parser standard
  apply Meets.bind_pure_proper (.expect_proper standard (by decide))
  intro closing tokens kept
  obtain ⟨rfl, closes⟩ := kept
  exact .one (by simp [closes])

theorem nested_proper {α : Type} {routine : Routine α} {shape : α → List Token → Prop}
    (standard : parser.Standard)
    (proper : ∀ parser : Parser, parser.Standard →
      (routine parser).Meets parser (.proper shape parser)) :
    (nested routine parser).Meets parser (.proper shape parser) := by
  refine .nested ?_ fun _ => proper _ standard.inside
  intro _
  exact ⟨Nat.zero_le _, rfl, fun ⟨text, same⟩ => by cases same⟩

/-- However many levels are left, what stands further in is read properly. -/
theorem levels_proper (count : Nat) : (levels count).Proper := by
  induction count with
  | zero => exact ⟨fun _ _ _ => .fail_proper (by simp), fun _ _ => .fail_proper (by simp)⟩
  | succ count ih =>
      exact ⟨fun _ _ standard => nested_proper standard fun _ => expressionBody_proper ih,
        fun _ standard => nested_proper standard fun _ => blockBody_proper ih⟩

theorem programBody_certain (proper : inner.Proper) (standard : parser.Standard) :
    (programBody inner parser).Meets parser (.certain (fun _ _ => True) parser) := by
  refine (statementsUntil_certain proper (by decide) standard).bind
    (fun _ _ _ impossible => impossible) id ?_
  intro statements count found kept
  exact .pure kept

end Routine

/-- Every source is parsed to its end. -/
theorem parse_certain (source : String) (file : Option String) :
    (parse source file).Meets (.ofSource source file)
      (.certain (fun _ _ => True) (.ofSource source file)) :=
  Routine.programBody_certain (Routine.levels_proper _) (Parser.ofSource_standard source file)

end Monkey
