import Monkey.Proofs.Parser.Isolation

namespace Monkey

/-! A closing brace ends what is read as the end of input does.

Most forms end with a token of their own, and are read alike whatever comes after it.  The others
look at one token more.  A closing brace can neither begin an expression nor continue one, no more
than the end of input can, and a statement that fails is skipped up to either of them.
-/

/-- If the routine succeeds, it ends with a token of its own, and the one after that does not
matter. -/
structure Routine.Delimited {α : Type} (routine : Routine α) : Prop where
  echoes : routine.Echoes Parser.Agrees 0
  takes : ∀ parser : Parser, parser.Standard →
    (routine parser).Meets parser (.onSuccess fun _ count _ => 0 < count)

namespace Routine.Delimited

open Parser.Agrees (sight)

variable {α β : Type} {routine : Routine α} {inner : Nested}

theorem fail {cause : Cause} : (Routine.fail cause : Routine α).Delimited :=
  ⟨.fail sight, fun _ _ => .fail trivial⟩

theorem advance : Routine.advance.Delimited :=
  ⟨.advance sight, fun _ _ => .advance Nat.one_pos⟩

theorem expect {kind : Kind} : (Routine.expect kind).Delimited :=
  ⟨.expect sight, fun _ _ => .expect (fun _ => Nat.one_pos) fun _ => trivial⟩

theorem atom : Routine.atom.Delimited := by
  refine ⟨.atom sight, ?_⟩
  intro parser _
  rw [atom_apply]
  exact .ok Nat.one_pos

/-- What is read first may look as far as the tokens of what is read last. -/
theorem bind {next : α → Routine β} (first : routine.Local)
    (last : ∀ value, (next value).Delimited) : (routine >>= next).Delimited := by
  refine ⟨?_, ?_⟩
  · intro parser other standard otherStandard
    apply (first parser other standard otherStandard).bind
    · intro diagnostic count found same agrees
      exact bind_failed (same agrees)
    · intro _
      trivial
    · intro value count found same
      have met := (last value).echoes (parser.beyond count found) (other.beyond count found)
        standard.beyond otherStandard.beyond
      apply (met.and ((last value).takes _ standard.beyond)).mono
      · intro result more others kept agrees
        obtain ⟨repeated, positive⟩ := kept
        rw [bind_eq (same (agrees.mono (Nat.add_lt_add_left positive count))),
          repeated (agrees.beyond (Nat.le_refl _)), Parser.beyond_beyond]
      · intro diagnostic more others kept agrees
        rw [bind_eq (same (agrees.mono (by omega))), kept.1 (agrees.beyond (by omega)),
          Parser.beyond_beyond]
      · intro _
        trivial
  · intro parser standard
    apply (first parser parser standard standard).bind
    · intro _ _ _ _
      trivial
    · intro _
      trivial
    · intro value count found _
      exact ((last value).takes _ standard.beyond).mono
        (fun _ _ _ positive => Nat.add_pos_right count positive) (fun _ _ _ _ => trivial) id

theorem bind_pure {value : α → β} (reads : routine.Delimited) :
    (routine >>= fun result => Pure.pure (value result)).Delimited := by
  refine ⟨.bind sight (Nat.zero_le 1) reads.echoes fun _ => .pure, ?_⟩
  intro parser standard
  apply (reads.takes parser standard).bind
  · intro _ _ _ _
    trivial
  · intro _
    trivial
  · intro result count found positive
    exact .pure positive

theorem choose {choice : Table → Token → Routine α}
    (each : ∀ table token, (choice table token).Delimited) :
    (Routine.choose choice).Delimited := by
  refine ⟨?_, fun parser standard => (each parser.table parser.current).takes parser standard⟩
  intro parser other standard otherStandard
  have chosen := each parser.table parser.current
  apply ((chosen.echoes parser other standard otherStandard).and
    (chosen.takes parser standard)).mono
  · intro value count found kept agrees
    obtain ⟨same, positive⟩ := kept
    rw [Routine.choose, agrees.table, (agrees.mono positive).current, same agrees]
  · intro diagnostic count found kept agrees
    rw [Routine.choose, agrees.table, agrees.current, kept.1 agrees]
  · intro _
    trivial

theorem nested (inside : routine.Delimited) : (Routine.nested routine).Delimited :=
  ⟨.nested sight inside.echoes, fun _ standard =>
    .nested (fun _ => trivial) fun _ => inside.takes _ standard.inside⟩

theorem enclosed {item : Routine α} (items : item.Local) : (Routine.enclosed item).Delimited := by
  have looks : Routine.enclosed item = Routine.choose fun _ token =>
      if token.kind = .closeParen then Routine.advance >>= fun _ => Pure.pure []
      else Routine.separated item >>= fun values =>
        Routine.expect .closeParen >>= fun _ => Pure.pure values := by
    funext parser
    rw [Routine.enclosed, Routine.choose]
    by_cases closes : parser.current.kind = .closeParen
    · rw [if_pos closes, bind_apply, Routine.skip, if_pos closes]
      rfl
    · rw [if_neg closes, bind_eq (skip_eq_false closes)]
      rfl
  rw [looks]
  apply choose
  intro table token
  split
  · exact advance.bind_pure
  · exact bind (Local.compositional.separated items) fun _ => expect.bind_pure

theorem group (isLocal : inner.Keeps Local) : (Routine.group inner).Delimited :=
  bind .advance fun _ => bind (isLocal.expression _) fun _ => expect.bind_pure

theorem function (block : inner.block.Delimited) : (Routine.function inner).Delimited :=
  bind .advance fun _ => bind .expect fun _ =>
    bind (Local.compositional.enclosed Local.compositional.identifier) fun _ => block.bind_pure

theorem call {callee : Expr} (isLocal : inner.Keeps Local) :
    (Routine.call inner callee).Delimited :=
  bind .advance fun _ => (enclosed (isLocal.expression _)).bind_pure

theorem blockBody (isLocal : inner.Keeps Local) : (Routine.blockBody inner).Delimited :=
  bind .expect fun _ => bind (Local.compositional.statementsUntil isLocal) fun _ =>
    expect.bind_pure

theorem levels_block (count : Nat) : (levels count).block.Delimited := by
  cases count with
  | zero => exact fail
  | succ count => exact nested (blockBody (Local.compositional.levels count))

end Routine.Delimited

namespace Parser

variable {parser other : Parser} {count more : Nat} {found : List Diagnostic}

/-- So many tokens of what is pending here are seen by the other parser, too, which sees all of
it and then a closing brace. -/
structure Braces (parser other : Parser) (count : Nat) : Prop where
  agrees : parser.Agrees other parser.pending.length
  closes : (other.token parser.pending.length).kind = .closeCurly
  inside : count ≤ parser.pending.length

namespace Braces

theorem mono (braces : parser.Braces other more) (fewer : count ≤ more) :
    parser.Braces other count :=
  ⟨braces.agrees, braces.closes, Nat.le_trans fewer braces.inside⟩

theorem beyond {whole : Nat} (braces : parser.Braces other whole) (fits : count + more ≤ whole) :
    (parser.beyond count found).Braces (other.beyond count found) more := by
  have inside : count + more ≤ parser.pending.length := Nat.le_trans fits braces.inside
  have split : count + (parser.pending.length - count) = parser.pending.length :=
    Nat.add_sub_cancel' (Nat.le_of_add_right_le inside)
  refine ⟨?_, ?_, ?_⟩
  · apply braces.agrees.beyond (Nat.le_of_eq ?_)
    rw [beyond_pending, List.length_drop, split]
  · rw [token_beyond, beyond_pending, List.length_drop, split]
    exact braces.closes
  · rw [beyond_pending, List.length_drop]
    exact Nat.le_sub_of_add_le' inside

theorem within (braces : parser.Braces other count) : parser.Agrees other count :=
  braces.agrees.mono braces.inside

theorem deeper (braces : parser.Braces other count) :
    ({ parser with depth := parser.depth + 1 } : Parser).Braces
      { other with depth := other.depth + 1 } count :=
  ⟨braces.agrees.inside, braces.closes, braces.inside⟩

theorem sight : Sight Braces where
  mono := mono
  beyond seen := seen.beyond (Nat.le_refl _)
  inside := deeper
  depth seen := seen.agrees.depth
  current seen := seen.within.current
  shorter seen := Agrees.sight.shorter seen.within

/-- Both parsers see the same token, or one the end of input and the other one the brace. -/
theorem token {index : Nat} (braces : parser.Braces other count) (standard : parser.Standard)
    (inside : index ≤ parser.pending.length) :
    other.token index = parser.token index ∨
      ((parser.token index).kind = .endOfInput ∧ (other.token index).kind = .closeCurly) := by
  rcases Nat.lt_or_eq_of_le inside with before | rfl
  · exact .inl (braces.agrees.tokens index before)
  · refine .inr ⟨?_, braces.closes⟩
    simp [Parser.token, standard.finish]

theorem current (braces : parser.Braces other count) (standard : parser.Standard) :
    other.current = parser.current ∨
      (parser.current.kind = .endOfInput ∧ other.current.kind = .closeCurly) :=
  braces.token standard (Nat.zero_le _)

theorem current_eq (braces : parser.Braces other count) (standard : parser.Standard)
    (present : parser.current.kind ≠ .endOfInput) : other.current = parser.current :=
  (braces.current standard).resolve_right fun finished => present finished.1

/-- What is skipped to the end of input is skipped to the brace. -/
theorem landing (braces : parser.Braces other count) (standard : parser.Standard)
    (otherStandard : other.Standard) : other.landing = parser.landing := by
  have reached : other.untilBoundary = parser.untilBoundary := by
    apply untilBoundary_eq standard otherStandard
    intro index below
    rw [standard.table, otherStandard.table]
    rcases braces.token standard (Nat.le_trans below untilBoundary_le) with same | ⟨ends, closes⟩
    · rw [same]
    · rw [ends, closes]
      rfl
  unfold Parser.landing
  rw [reached]
  rcases braces.token standard untilBoundary_le with same | ⟨ends, closes⟩
  · rw [same]
  · rw [ends, closes]
    rfl

theorem resumed {stop : Nat} (braces : parser.Braces other (stop + 1))
    (standard : parser.Standard) (otherStandard : other.Standard) :
    other.resumed stop = parser.resumed stop := by
  have rest : (parser.beyond (max 1 stop) []).Braces (other.beyond (max 1 stop) []) 0 :=
    braces.beyond (by omega)
  unfold Parser.resumed
  rw [(braces.within.mono (Nat.succ_le_succ (Nat.zero_le stop))).current,
    rest.landing standard.beyond otherStandard.beyond]

end Braces

end Parser

/-- A closing brace does to the routine what the end of input does. -/
def Routine.Braced {α : Type} (routine : Routine α) : Prop :=
  routine.Echoes Parser.Braces 0

namespace Routine.Braced

variable {α β : Type} {routine : Routine α} {inner : Nested}

theorem pure {value : α} : (Pure.pure value : Routine α).Braced :=
  Echoes.pure

theorem ofDelimited (reads : routine.Delimited) : routine.Braced := by
  intro parser other standard otherStandard
  apply (reads.echoes parser other standard otherStandard).mono
  · intro value count found same braces
    exact same braces.within
  · intro diagnostic count found same braces
    exact same braces.within
  · intro _
    trivial

theorem skip {kind : Kind} (plain : kind ≠ .closeCurly) : (Routine.skip kind).Braced := by
  intro parser other standard otherStandard
  apply Outcome.Meets.skip
  · intro present braces
    rw [Routine.skip, braces.within.current, if_pos present, Parser.advance_eq_beyond]
  · intro absent braces
    have missing : other.current.kind ≠ kind := by
      rcases braces.current standard with same | ⟨_, closes⟩
      · rwa [same]
      · rw [closes]
        exact plain.symm
    rw [skip_eq_false missing, Parser.beyond_zero]

theorem bind {next : α → Routine β} (first : routine.Braced)
    (later : ∀ value, (next value).Braced) : (routine >>= next).Braced :=
  Echoes.bind Parser.Braces.sight (Nat.zero_le 1) first later

theorem nested (inside : routine.Braced) : (Routine.nested routine).Braced :=
  Echoes.nested Parser.Braces.sight inside

theorem iterate {round : α → Routine (Round α β)} (step : ∀ value, (round value).Braced)
    (start : α) : Routine.Braced (Routine.iterate round start) :=
  Echoes.iterate Parser.Braces.sight (Nat.zero_le 1) step start

/-- A choice that is the same at a closing brace and at the end of input. -/
theorem choose {choice : Table → Token → Routine α}
    (each : ∀ table token, (choice table token).Braced)
    (ends : ∀ finish brace : Token, finish.kind = .endOfInput → brace.kind = .closeCurly →
      choice .standard brace = choice .standard finish) : (Routine.choose choice).Braced := by
  intro parser other standard otherStandard
  have chosen : ∀ count, parser.Braces other count →
      choice other.table other.current = choice parser.table parser.current := by
    intro count braces
    rw [standard.table, otherStandard.table]
    rcases braces.current standard with same | ⟨finished, closes⟩
    · rw [same]
    · exact ends _ _ finished closes
  apply (each parser.table parser.current parser other standard otherStandard).mono
  · intro value count found same braces
    rw [Routine.choose, chosen _ braces, same braces]
  · intro diagnostic count found same braces
    rw [Routine.choose, chosen _ braces, same braces]
  · intro _
    trivial

theorem unary (keeps : inner.Keeps Braced) : (Routine.unary inner).Braced :=
  bind (ofDelimited .advance) fun _ => bind (keeps.expression _) fun _ => pure

theorem conditional (keeps : inner.Keeps Braced) : (Routine.conditional inner).Braced := by
  apply bind (ofDelimited .advance)
  intro token
  apply bind (ofDelimited .expect)
  intro opening
  apply bind (keeps.expression _)
  intro condition
  apply bind (ofDelimited .expect)
  intro closing
  apply bind keeps.block
  intro consequence
  apply bind (skip (by decide))
  intro skipped
  cases skipped with
  | true => exact bind keeps.block fun _ => pure
  | false => exact pure

theorem binary {left : Expr} {power : Power} (keeps : inner.Keeps Braced) :
    (Routine.binary inner left power).Braced :=
  bind (ofDelimited .advance) fun _ => bind (keeps.expression _) fun _ => pure

theorem prefixForm (isLocal : inner.Keeps Local) (keeps : inner.Keeps Braced)
    (block : inner.block.Delimited) (form : PrefixForm) : (form.read inner).Braced := by
  cases form with
  | atom => exact ofDelimited .atom
  | unary => exact unary keeps
  | group => exact ofDelimited (.group isLocal)
  | conditional => exact conditional keeps
  | function => exact ofDelimited (.function block)

theorem infixForm {left : Expr} {power : Power} (isLocal : inner.Keeps Local)
    (keeps : inner.Keeps Braced) (form : InfixForm) : (form.read inner left power).Braced := by
  cases form with
  | binary => exact binary keeps
  | call => exact ofDelimited (.call isLocal)

/-- An expression begins neither with a closing brace nor at the end of input. -/
theorem leading (forms : ∀ form : PrefixForm, (form.read inner).Braced) :
    (Routine.leading inner).Braced := by
  intro parser other standard otherStandard
  rw [leading_apply, leading_apply, standard.table, otherStandard.table]
  cases registered : Table.standard.prefixForm parser.current.kind with
  | none =>
      apply Outcome.Meets.fail
      intro braces
      rw [braces.within.current, registered, Routine.fail, braces.within.position,
        Parser.beyond_zero]
  | some form =>
      obtain ⟨present, _⟩ := Table.standard_prefixForm_kind registered
      apply (forms form parser other standard otherStandard).mono
      · intro value count found same braces
        rw [braces.current_eq standard present, registered]
        exact same braces
      · intro diagnostic count found same braces
        rw [braces.current_eq standard present, registered]
        exact same braces
      · intro _
        trivial

/-- An expression goes on neither with a closing brace nor at the end of input. -/
theorem continued {power : Power} {left : Expr} (isLocal : inner.Keeps Local)
    (keeps : inner.Keeps Braced) : (Routine.continued inner power left).Braced := by
  rw [continued_eq]
  apply choose
  · intro table token
    cases table.infixRule token.kind with
    | none => exact pure
    | some rule =>
        dsimp only
        split
        · exact bind (infixForm isLocal keeps rule.form) fun _ => pure
        · exact pure
  · intro finish brace finished closes
    rw [finished, closes]
    rfl

theorem levels (count : Nat) : (levels count).Keeps Braced := by
  induction count with
  | zero => exact ⟨fun _ => ofDelimited .fail, ofDelimited .fail⟩
  | succ count ih =>
      have isLocal := Local.compositional.levels count
      refine ⟨?_, ofDelimited (.levels_block _)⟩
      intro power
      apply nested
      apply bind (leading (prefixForm isLocal ih (.levels_block count)))
      exact iterate fun _ => continued isLocal ih

theorem ending (keeps : inner.Keeps Braced) : (Routine.ending inner).Braced :=
  bind (keeps.expression _) fun _ => bind (skip (by decide)) fun _ => pure

/-- The statement keeps the token it begins with, which is neither of both. -/
theorem expressionStatement (proper : inner.Proper) (keeps : inner.Keeps Braced) :
    (Routine.expressionStatement inner).Braced := by
  intro parser other standard otherStandard
  rw [expressionStatement_apply, expressionStatement_apply]
  apply ((ending_proper proper standard).and
    (ending keeps parser other standard otherStandard)).bind
  · intro diagnostic count found kept braces
    exact bind_failed (kept.2 braces)
  · intro _
    trivial
  · intro value count found kept
    obtain ⟨⟨_, consumed⟩, same⟩ := kept
    apply Outcome.Meets.pure
    intro braces
    rw [bind_eq (same braces), braces.current_eq standard (standard.present_of_taken consumed)]
    simp

theorem statementBody (proper : inner.Proper) (keeps : inner.Keeps Braced) :
    (Routine.statementBody inner).Braced := by
  rw [statementBody_eq]
  apply choose
  · intro table token
    cases table.statementForm token.kind with
    | none => exact expressionStatement proper keeps
    | some form =>
        cases form with
        | binding =>
            exact bind (ofDelimited .advance) fun _ =>
              bind (ofDelimited (Delimited.bind_pure .expect)) fun _ =>
                bind (ofDelimited .expect) fun _ => bind (ending keeps) fun _ => pure
        | result => exact bind (ofDelimited .advance) fun _ => bind (ending keeps) fun _ => pure
        | expression => exact expressionStatement proper keeps
  · intro finish brace finished closes
    rw [finished, closes]
    rfl

end Routine.Braced

end Monkey
