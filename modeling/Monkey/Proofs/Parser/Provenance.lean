import Monkey.Proofs.Parser.Progress
import Monkey.Proofs.Token.Lossless
import Monkey.Proofs.Tree.Nodes

namespace Monkey

/-! A tree is made of the tokens that were consumed to read it.

Every routine makes its nodes of the tokens it consumes itself and puts them where these tokens
stand among those of its parts.  What a statement that failed had made is dropped with it.
-/

/-- The expression is made of the tokens, and begins where they do. -/
structure Expr.ReadFrom (tree : Expr) (tokens : List Token) : Prop where
  made : MadeOf tree.nodes tokens
  leads : Leads tree.nodes tokens

structure Nested.Gathers (inner : Nested) : Prop where
  expression : ∀ (power : Power) (parser : Parser), parser.Standard →
    (inner.expression power parser).Meets parser (.proper Expr.ReadFrom parser)
  block : ∀ parser : Parser, parser.Standard →
    (inner.block parser).Meets parser (.proper (fun block => MadeOf block.nodes) parser)

namespace Routine

open Outcome

variable {α : Type} {parser : Parser} {inner : Nested} {nodes : α → List Node}

theorem identifier_made (standard : parser.Standard) :
    (identifier parser).Meets parser (.proper (fun name => MadeOf [.binder name]) parser) := by
  apply Meets.bind_pure_proper (.expect_proper standard (by decide))
  intro token tokens consumed
  obtain ⟨rfl, isName⟩ := consumed
  exact .one rfl ⟨isName, rfl⟩

theorem separated_made {item : Routine α} (standard : parser.Standard)
    (made : ∀ parser : Parser, parser.Standard →
      (item parser).Meets parser (.proper (fun value => MadeOf (nodes value)) parser)) :
    (separated item parser).Meets parser
      (.proper (fun values => MadeOf (values.flatMap nodes)) parser) := by
  rw [separated_eq]
  refine .iterate_keeps (fun items => MadeOf (items.toList.flatMap nodes)) standard ?_ .nil
  intro items parser standard
  apply Meets.bind_proper standard (made parser standard)
  intro value parser standard
  apply Meets.bind_proper standard (.skip_proper standard (by decide))
  intro skipped parser standard
  cases skipped with
  | true =>
      apply Meets.pure_proper
      intro _ skipped tokens item
      obtain ⟨comma, rfl, _⟩ := skipped
      refine ⟨by simp, fun before items => ?_⟩
      simpa using items.append item.after
  | false =>
      apply Meets.pure_proper
      intro _ nothing tokens item before items
      subst nothing
      simpa using items.append item

theorem enclosed_made {item : Routine α} (standard : parser.Standard)
    (made : ∀ parser : Parser, parser.Standard →
      (item parser).Meets parser (.proper (fun value => MadeOf (nodes value)) parser)) :
    (enclosed item parser).Meets parser
      (.proper (fun values => MadeOf (values.flatMap nodes)) parser) := by
  apply Meets.bind_proper standard (.skip_proper standard (by decide))
  intro skipped parser standard
  cases skipped with
  | true => exact .pure_proper fun _ _ => .nil
  | false =>
      apply Meets.bind_proper standard (separated_made standard made)
      intro items parser standard
      apply Meets.bind_pure_proper (.expect_proper standard (by decide))
      intro closing _ _ tokens items _ nothing
      subst nothing
      exact items.after

theorem atom_made (standard : parser.Standard)
    (registered : Table.standard.prefixForm parser.current.kind = some .atom) :
    (atom parser).Meets parser (.proper Expr.ReadFrom parser) := by
  have present := (Table.standard_prefixForm_kind registered).1
  rw [atom_apply]
  refine .ok ⟨standard.lt_length present, ?_⟩
  rw [standard.taken_one present]
  cases kind : parser.current.kind <;> simp [Table.standard, kind] at registered
  all_goals simp only [Expr.ofToken, kind]
  · exact ⟨.one rfl ⟨kind, rfl⟩, .own rfl⟩
  · exact ⟨.one rfl kind, .own rfl⟩
  · exact ⟨.one rfl kind, .own rfl⟩
  · exact ⟨.one rfl kind, .own rfl⟩

theorem unary_made (gathers : inner.Gathers) (standard : parser.Standard)
    (registered : Table.standard.prefixForm parser.current.kind = some .unary) :
    (unary inner parser).Meets parser (.proper Expr.ReadFrom parser) := by
  have operates : parser.current.kind = .not ∨ parser.current.kind = .dash := by
    simpa [PrefixForm.kinds] using Table.standard_prefixForm_iff.1 registered
  apply Meets.bind_proper standard
    (.advance_proper standard (Table.standard_prefixForm_kind registered).1)
  intro operator parser standard
  apply Meets.bind_pure_proper (gathers.expression _ _ standard)
  intro operand tokens read _ consumed
  obtain ⟨rfl, rfl⟩ := consumed
  exact ⟨.cons rfl ⟨operates, rfl⟩ read.made, .own rfl⟩

theorem group_made (gathers : inner.Gathers) (standard : parser.Standard)
    (opens : parser.current.kind = .openParen) :
    (group inner parser).Meets parser (.proper Expr.ReadFrom parser) := by
  apply Meets.bind_proper standard (.advance_proper standard (by simp [opens]))
  intro opening parser standard
  apply Meets.bind_proper standard (gathers.expression _ _ standard)
  intro value parser standard
  apply Meets.bind_pure_proper (.expect_proper standard (by decide))
  intro closing _ _ tokens read _ consumed
  obtain ⟨rfl, rfl⟩ := consumed
  exact ⟨read.made.after.before, read.leads.extend.open opens⟩

theorem conditional_made (gathers : inner.Gathers) (standard : parser.Standard)
    (starts : parser.current.kind = .ifKeyword) :
    (conditional inner parser).Meets parser (.proper Expr.ReadFrom parser) := by
  apply Meets.bind_proper standard (.advance_proper standard (by simp [starts]))
  intro keyword parser standard
  apply Meets.bind_proper standard (.expect_proper standard (by decide))
  intro opening parser standard
  apply Meets.bind_proper standard (gathers.expression _ _ standard)
  intro condition parser standard
  apply Meets.bind_proper standard (.expect_proper standard (by decide))
  intro closing parser standard
  apply Meets.bind_proper standard (gathers.block _ standard)
  intro consequence parser standard
  apply Meets.bind_proper standard (.skip_proper standard (by decide))
  intro skipped parser standard
  cases skipped with
  | true =>
      apply Meets.bind_pure_proper (gathers.block _ standard)
      -- The parts come back in reverse, each with the tokens it was made of.
      intro alternative _ other _ _ _ block _ _ _ value _ _ _ consumed
      obtain ⟨rfl, rfl⟩ := consumed
      exact ⟨.cons rfl starts (value.made.append (block.append other.before).before).before,
        .own rfl⟩
  | false =>
      apply Meets.pure_proper
      intro _ _ _ block _ _ _ value _ _ _ consumed
      obtain ⟨rfl, rfl⟩ := consumed
      exact ⟨.cons rfl starts (value.made.append (block.append .nil).before).before, .own rfl⟩

theorem function_made (gathers : inner.Gathers) (standard : parser.Standard)
    (starts : parser.current.kind = .functionKeyword) :
    (function inner parser).Meets parser (.proper Expr.ReadFrom parser) := by
  apply Meets.bind_proper standard (.advance_proper standard (by simp [starts]))
  intro keyword parser standard
  apply Meets.bind_proper standard (.expect_proper standard (by decide))
  intro opening parser standard
  apply Meets.bind_proper standard (enclosed_made standard fun _ => identifier_made)
  intro parameters parser standard
  apply Meets.bind_pure_proper (gathers.block _ standard)
  intro body _ block _ names _ _ _ consumed
  obtain ⟨rfl, rfl⟩ := consumed
  rw [← List.map_eq_flatMap] at names
  exact ⟨.cons rfl starts (names.append block).before, .own rfl⟩

/-- What was read on the left goes on with what was consumed. -/
def ExtendedBy (left tree : Expr) (tokens : List Token) : Prop :=
  tokens ≠ [] ∧ ∀ before, left.ReadFrom before → tree.ReadFrom (before ++ tokens)

theorem binary_made {left : Expr} {power operatorPower : Power} (gathers : inner.Gathers)
    (standard : parser.Standard)
    (registered : Table.standard.infixRule parser.current.kind = some ⟨operatorPower, .binary⟩) :
    (binary inner left power parser).Meets parser (.proper (ExtendedBy left) parser) := by
  have operates : parser.current.kind ∈ Node.binaryOperators :=
    Table.mem_kinds_of_standard_infixRule registered
  apply Meets.bind_proper standard
    (.advance_proper standard (Table.standard_infixRule_kind registered).1)
  intro operator parser standard
  apply Meets.bind_pure_proper (gathers.expression _ _ standard)
  intro right tokens read _ consumed
  obtain ⟨rfl, rfl⟩ := consumed
  refine ⟨by simp, fun before first => ?_⟩
  exact ⟨first.made.append (.cons rfl ⟨operates, rfl⟩ read.made), first.leads.append⟩

theorem call_made {callee : Expr} (gathers : inner.Gathers) (standard : parser.Standard)
    (opens : parser.current.kind = .openParen) :
    (call inner callee parser).Meets parser (.proper (ExtendedBy callee) parser) := by
  apply Meets.bind_proper standard (.advance_proper standard (by simp [opens]))
  intro opening parser standard
  apply Meets.bind_pure_proper (enclosed_made standard fun parser standard =>
    (gathers.expression _ parser standard).mono_proper fun _ _ => Expr.ReadFrom.made)
  intro arguments tokens made _ consumed
  obtain ⟨rfl, rfl⟩ := consumed
  rw [← argumentsNodes_eq_flatMap] at made
  refine ⟨by simp, fun before first => ?_⟩
  exact ⟨first.made.append (.cons rfl opens made), first.leads.append⟩

theorem leading_made (gathers : inner.Gathers) (standard : parser.Standard) :
    (leading inner parser).Meets parser (.proper Expr.ReadFrom parser) := by
  rw [leading_apply, standard.table]
  cases registered : Table.standard.prefixForm parser.current.kind with
  | none => exact .fail_proper (by simp)
  | some form =>
      have starts := Table.standard_prefixForm_iff.1 registered
      cases form with
      | atom => exact atom_made standard registered
      | unary => exact unary_made gathers standard registered
      | group => exact group_made gathers standard (List.mem_singleton.1 starts)
      | conditional => exact conditional_made gathers standard (List.mem_singleton.1 starts)
      | function => exact function_made gathers standard (List.mem_singleton.1 starts)

theorem continued_made {power : Power} {left : Expr} (gathers : inner.Gathers)
    (standard : parser.Standard) :
    (continued inner power left parser).Meets parser
      (.proper (Meets.roundKeeps Expr.ReadFrom Expr.ReadFrom left) parser) := by
  have stays : ((pure (.done left) : Routine (Round Expr Expr)) parser).Meets parser
      (.proper (Meets.roundKeeps Expr.ReadFrom Expr.ReadFrom left) parser) :=
    .pure_proper fun before read => by rwa [List.append_nil]
  rw [continued_apply, standard.table]
  cases registered : Table.standard.infixRule parser.current.kind with
  | none => exact stays
  | some rule =>
      obtain ⟨operatorPower, form⟩ := rule
      dsimp only
      split
      · have extended : (form.read inner left operatorPower parser).Meets parser
            (.proper (ExtendedBy left) parser) := by
          cases form with
          | binary => exact binary_made gathers standard registered
          | call =>
              exact call_made gathers standard
                (List.mem_singleton.1 (Table.mem_kinds_of_standard_infixRule registered))
        exact .bind_pure_proper extended fun _ _ kept => kept
      · exact stays

theorem expressionBody_made {power : Power} (gathers : inner.Gathers)
    (standard : parser.Standard) :
    (expressionBody inner power parser).Meets parser (.proper Expr.ReadFrom parser) :=
  .bind_iterate_keeps standard (leading_made gathers standard)
    fun _ _ standard => continued_made gathers standard

theorem ending_made (gathers : inner.Gathers) (standard : parser.Standard) :
    (ending inner parser).Meets parser (.proper Expr.ReadFrom parser) := by
  apply Meets.bind_proper standard (gathers.expression _ _ standard)
  intro value parser standard
  apply Meets.bind_pure_proper (.skip_proper standard (by decide))
  intro skipped tokens _ before read
  exact ⟨read.made.after, read.leads.extend⟩

theorem expressionStatement_made (gathers : inner.Gathers) (standard : parser.Standard) :
    (expressionStatement inner parser).Meets parser
      (.proper (fun tree tokens => tokens ≠ [] ∧ MadeOf tree.nodes tokens) parser) := by
  rw [expressionStatement_apply]
  apply Meets.bind_pure_proper (ending_made gathers standard).proper_with_head
  intro value tokens kept
  obtain ⟨read, head⟩ := kept
  obtain ⟨first, rest, rfl⟩ := List.exists_cons_of_ne_nil read.leads.ne_nil
  obtain rfl := head first rfl
  exact ⟨by simp, .share read.made read.leads⟩

theorem statementBody_made (gathers : inner.Gathers) (standard : parser.Standard) :
    (statementBody inner parser).Meets parser
      (.proper (fun tree tokens => tokens ≠ [] ∧ MadeOf tree.nodes tokens) parser) := by
  rw [statementBody_apply, standard.table]
  cases registered : Table.standard.statementForm parser.current.kind with
  | none => exact expressionStatement_made gathers standard
  | some form =>
      have starts := Table.standard_statementForm_iff.1 registered
      obtain ⟨present, _⟩ := Table.standard_statementForm_kind registered
      cases form with
      | binding =>
          apply Meets.bind_proper standard (.advance_proper standard present)
          intro keyword parser standard
          apply Meets.bind_proper standard (identifier_made standard)
          intro name parser standard
          apply Meets.bind_proper standard (.expect_proper standard (by decide))
          intro sign parser standard
          apply Meets.bind_pure_proper (ending_made gathers standard)
          intro value _ read _ _ _ made _ consumed
          obtain ⟨rfl, rfl⟩ := consumed
          exact ⟨by simp, .cons rfl (List.mem_singleton.1 starts) (made.append read.made.before)⟩
      | result =>
          apply Meets.bind_proper standard (.advance_proper standard present)
          intro keyword parser standard
          apply Meets.bind_pure_proper (ending_made gathers standard)
          intro value _ read _ consumed
          obtain ⟨rfl, rfl⟩ := consumed
          exact ⟨by simp, .cons rfl (List.mem_singleton.1 starts) read.made⟩
      | expression => exact expressionStatement_made gathers standard

theorem statementsUntil_made {ends : Kind → Bool} (gathers : inner.Gathers)
    (finite : ends .endOfInput = true) (standard : parser.Standard) :
    (statementsUntil ends (statementBody inner) parser).Meets parser
      (.proper (fun statements => MadeOf (statementsNodes statements)) parser) := by
  simp only [statementsUntil_eq, statementsNodes_eq_flatMap]
  refine .iterate_keeps (fun statements => MadeOf (statements.toList.flatMap Statement.nodes))
    standard ?_ .nil
  intro statements parser standard
  unfold statementsRound
  split
  · exact .pure_proper fun before made => made.after
  · rename_i goesOn
    have present : parser.current.kind ≠ .endOfInput := by
      intro finished
      exact goesOn (by rw [finished, finite])
    apply Meets.bind_proper standard
      (recovering_keeps standard present (statementBody_made gathers standard)).proper_of_certain
    intro result parser standard
    cases result with
    | none =>
        -- What a statement that failed had consumed is left without nodes.
        apply Meets.pure_proper
        intro tokens kept
        exact ⟨by simpa using kept.1, fun before made => made.after⟩
    | some tree =>
        apply Meets.pure_proper
        intro tokens kept
        refine ⟨by simpa using kept.1, fun before made => ?_⟩
        simpa using made.append (kept.2 tree rfl)

theorem blockBody_made (gathers : inner.Gathers) (standard : parser.Standard) :
    (blockBody inner parser).Meets parser (.proper (fun block => MadeOf block.nodes) parser) := by
  apply Meets.bind_proper standard (.expect_proper standard (by decide))
  intro opening parser standard
  apply Meets.bind_proper standard (statementsUntil_made gathers (by decide) standard)
  intro statements parser standard
  apply Meets.bind_pure_proper (.expect_proper standard (by decide))
  intro closing _ _ tokens made _ consumed
  obtain ⟨rfl, opens⟩ := consumed
  exact .cons rfl opens made.after

theorem programBody_made (gathers : inner.Gathers) (standard : parser.Standard) :
    (programBody inner parser).Meets parser
      (.proper (fun program => MadeOf program.nodes) parser) :=
  .bind_pure_proper (statementsUntil_made gathers (by decide) standard) fun _ _ made => made

/-- However many levels are left, what stands further in is made of the tokens consumed. -/
theorem levels_gathers (count : Nat) : (levels count).Gathers := by
  induction count with
  | zero => exact ⟨fun _ _ _ => .fail_proper (by simp), fun _ _ => .fail_proper (by simp)⟩
  | succ count ih =>
      exact ⟨fun _ _ standard => nested_proper standard fun _ => expressionBody_made ih,
        fun _ standard => nested_proper standard fun _ => blockBody_made ih⟩

end Routine

/-- Every node of a program, however malformed its source, is made of a token of the source: of one
that its form asks for, of no token twice, and in the order of the source.  As far as an offset
can be held, the tokens listed for the nodes start at greater and greater offsets. -/
theorem nodes_in_order (source : String) (file : Option String) :
    ∃ program after, parse source file = .ok program after ∧
      MadeOf program.nodes (tokenize source file) ∧
      (∀ node ∈ program.nodes, node.token ∈ tokenize source file) ∧
      ((listed program.nodes).Pairwise fun first second => ∃ start later, start < later ∧
        first.StandsAt source (file.getD Lexer.defaultFile) start ∧
        second.StandsAt source (file.getD Lexer.defaultFile) later) ∧
      (source.utf8ByteSize ≤ Position.lastOffset →
        (listed program.nodes).Pairwise fun first second =>
          first.span.start.offset < second.span.start.offset) := by
  have standard := Parser.ofSource_standard source file
  have made : (parse source file).Meets (.ofSource source file)
      (.proper (fun program => MadeOf program.nodes) (.ofSource source file)) :=
    Routine.programBody_made (Routine.levels_gathers _) standard
  obtain ⟨program, count, found, parsed, _, _, kept⟩ :=
    ((parse_certain source file).and made).succeeds (fun _ _ _ both => both.1) fun both => both.1
  have consumed : tokenize source file =
      (Parser.ofSource source file).taken count ++ ((Parser.ofSource source file).pending.drop count
        ++ [(Parser.ofSource source file).finish]) := by
    rw [Parser.tokenize_eq, ← List.append_assoc, Parser.taken, List.take_append_drop]
  have whole : MadeOf program.nodes (tokenize source file) := by
    rw [consumed]
    exact kept.after
  have stands := (Covers.scan (file.getD Lexer.defaultFile) 0 source.toList).pairwise
    (dropBytes_zero source.toList)
  have apart := stands.sublist (kept.inOrder.trans (List.take_sublist count _))
  refine ⟨program, _, parsed, whole, fun _ => whole.token_mem, apart, fun small => ?_⟩
  refine apart.imp fun {first second} both => ?_
  obtain ⟨start, later, before, one, two⟩ := both
  rwa [one.start small, two.start small]

theorem nodes_in_order_salvaged :
    ∃ program after, parse "fn(a) \x7b let ; ((a)) + 1 \x7d !" none = .ok program after ∧
      (listed program.nodes).map (·.text) = ["fn", "a", "\x7b", "a", "+", "1"] ∧
      MadeOf program.nodes (tokenize "fn(a) \x7b let ; ((a)) + 1 \x7d !" none) ∧
      (listed program.nodes).Pairwise fun first second =>
        first.span.start.offset < second.span.start.offset := by
  obtain ⟨program, after, parsed, made, _, _, apart⟩ :=
    nodes_in_order "fn(a) \x7b let ; ((a)) + 1 \x7d !" none
  have texts : (match parse "fn(a) \x7b let ; ((a)) + 1 \x7d !" none with
      | .ok program _ => (listed program.nodes).map (·.text)
      | _ => []) = ["fn", "a", "\x7b", "a", "+", "1"] := by decide +kernel
  rw [parsed] at texts
  exact ⟨program, after, parsed, texts, made, apart (by decide)⟩

end Monkey
