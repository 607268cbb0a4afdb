import Monkey.Proofs.Parser.Standard

namespace Monkey

/-! Running routines on tokens that are known beforehand. -/

namespace Parser

variable {parser : Parser} {count : Nat} {first second tokens : List Token} {token : Token}

/-- The parser once it has read this token, which is the next one.  If it is an integer and
too large, that is recorded. -/
def pass (parser : Parser) (token : Token) : Parser :=
  parser.beyond 1 token.excess

def past (parser : Parser) (tokens : List Token) : Parser :=
  tokens.foldl pass parser

@[simp] theorem past_nil : parser.past [] = parser := rfl

@[simp] theorem past_cons : parser.past (token :: tokens) = (parser.pass token).past tokens := rfl

@[simp] theorem past_append : parser.past (first ++ second) = (parser.past first).past second :=
  List.foldl_append

theorem past_eq_beyond :
    parser.past tokens = parser.beyond tokens.length (tokens.flatMap Token.excess) := by
  induction tokens generalizing parser with
  | nil => simp
  | cons token tokens ih => simp [ih, pass, Nat.add_comm 1]

theorem pass_eq_advance (plain : token.kind ≠ .integer) : parser.pass token = parser.advance 1 := by
  simp [pass, Token.excess, plain, advance_eq_beyond]

theorem Standard.past (standard : parser.Standard) : (parser.past tokens).Standard := by
  rw [past_eq_beyond]
  exact standard.beyond

theorem current_past_inside (parser : Parser) (depth : Nat) (tokens : List Token) :
    (({ parser with depth } : Parser).past tokens).current = (parser.past tokens).current := by
  rw [past_eq_beyond, past_eq_beyond]
  rfl

theorem current_past_pending (parser : Parser) :
    (parser.past parser.pending).current = parser.finish := by
  rw [past_eq_beyond, current_beyond]
  simp [Parser.token]

/-- A parser of the language that looks at these tokens and may open so many levels. -/
structure Facing (parser : Parser) (count : Nat) (tokens : List Token) : Prop where
  standard : parser.Standard
  room : parser.depth + count ≤ nestingLimit
  leading : tokens <+: parser.pending

namespace Facing

theorem left (facing : parser.Facing count (first ++ second)) : parser.Facing count first :=
  ⟨facing.standard, facing.room, (List.prefix_append first second).trans facing.leading⟩

theorem past (facing : parser.Facing count (first ++ second)) :
    (parser.past first).Facing count second := by
  rw [past_eq_beyond]
  refine ⟨facing.standard.beyond, facing.room, ?_⟩
  obtain ⟨rest, pending⟩ := facing.leading
  refine ⟨rest, ?_⟩
  simp [← pending]

theorem tail (facing : parser.Facing count (token :: tokens)) :
    (parser.pass token).Facing count tokens :=
  past (show parser.Facing count ([token] ++ tokens) from facing)

theorem current (facing : parser.Facing count (token :: tokens)) : parser.current = token :=
  (current_of_leading facing.leading rfl).symm

theorem inside (facing : parser.Facing (count + 1) tokens) :
    ({ parser with depth := parser.depth + 1 } : Parser).Facing count tokens :=
  ⟨facing.standard.inside, by simpa [Nat.add_assoc, Nat.add_comm 1] using facing.room,
    facing.leading⟩

theorem depth_lt (facing : parser.Facing (count + 1) tokens) : parser.depth < nestingLimit :=
  Nat.lt_of_lt_of_le (Nat.lt_add_of_pos_right (Nat.succ_pos count)) facing.room

theorem shorter (facing : parser.Facing count tokens) (present : tokens ≠ []) :
    (parser.past tokens).pending.length < parser.pending.length := by
  have bound := facing.leading.length_le
  have positive := List.length_pos_iff.2 present
  simp only [past_eq_beyond, beyond_pending, List.length_drop]
  omega

end Facing

end Parser

namespace Routine

variable {α β : Type} {parser after : Parser} {count : Nat} {tokens : List Token} {token : Token}

theorem bind_eq {routine : Routine α} {next : α → Routine β} {value : α}
    (run : routine parser = .ok value after) : (routine >>= next) parser = next value after := by
  rw [bind_apply, run]

theorem bind_failed {routine : Routine α} {next : α → Routine β} {diagnostic : Diagnostic}
    (run : routine parser = .failed diagnostic after) :
    (routine >>= next) parser = .failed diagnostic after := by
  rw [bind_apply, run]

theorem advance_eq (facing : parser.Facing count (token :: tokens))
    (plain : token.kind ≠ .integer) :
    advance parser = .ok token (parser.pass token) := by
  rw [advance, facing.current, Parser.pass_eq_advance plain]

theorem expect_beyond {kind : Kind} (present : parser.current.kind = kind) :
    expect kind parser = .ok parser.current (parser.beyond 1 []) := by
  rw [expect, if_pos present, advance, Parser.advance_eq_beyond]

theorem expect_eq {kind : Kind} (facing : parser.Facing count (token :: tokens))
    (present : token.kind = kind) (plain : kind ≠ .integer) :
    expect kind parser = .ok token (parser.pass token) := by
  rw [expect, if_pos (by rw [facing.current, present]),
    advance_eq facing (by rwa [present])]

theorem identifier_eq (facing : parser.Facing count (token :: tokens))
    (isName : token.kind = .identifier) :
    identifier parser = .ok ⟨token, token.text⟩ (parser.pass token) := by
  rw [identifier, bind_eq (expect_eq facing isName (by decide))]
  rfl

theorem skip_eq_true {kind : Kind} (facing : parser.Facing count (token :: tokens))
    (present : token.kind = kind) (plain : kind ≠ .integer) :
    skip kind parser = .ok true (parser.pass token) := by
  rw [skip, if_pos (by rw [facing.current, present]), Parser.pass_eq_advance (by rwa [present])]

theorem skip_eq_false {kind : Kind} (absent : parser.current.kind ≠ kind) :
    skip kind parser = .ok false parser := by
  rw [skip, if_neg absent]

theorem nested_apply {routine : Routine α} (room : parser.depth < nestingLimit) :
    nested routine parser =
      (routine { parser with depth := parser.depth + 1 }).mapAfter Parser.leave := by
  rw [nested, enter, if_neg (Nat.not_le_of_lt room)]

theorem nested_refused {routine : Routine α} (full : nestingLimit ≤ parser.depth) :
    nested routine parser = fail (.nestedTooDeep nestingLimit) parser := by
  rw [nested, enter, if_pos full]
  rfl

theorem nested_beyond {routine : Routine α} {value : α} {found : List Diagnostic}
    (room : parser.depth < nestingLimit)
    (run : routine { parser with depth := parser.depth + 1 } =
      .ok value (({ parser with depth := parser.depth + 1 } : Parser).beyond count found)) :
    nested routine parser = .ok value (parser.beyond count found) := by
  rw [nested_apply room, run]
  rfl

theorem nested_eq {routine : Routine α} {value : α} (room : parser.depth < nestingLimit)
    (run : routine { parser with depth := parser.depth + 1 } =
      .ok value (({ parser with depth := parser.depth + 1 } : Parser).past tokens)) :
    nested routine parser = .ok value (parser.past tokens) := by
  rw [Parser.past_eq_beyond] at run ⊢
  exact nested_beyond room run

theorem iterate_done {round : α → Routine (Round α β)} {value : α} {result : β}
    (run : round value parser = .ok (.done result) after) :
    iterate round value parser = .ok result after := by
  rw [iterate, run]

theorem iterate_again {round : α → Routine (Round α β)} {value next : α}
    (run : round value parser = .ok (.again next) after)
    (shorter : after.pending.length < parser.pending.length) :
    iterate round value parser = iterate round next after := by
  rw [iterate, run]
  exact dif_pos shorter

theorem iterate_failed {round : α → Routine (Round α β)} {value : α} {diagnostic : Diagnostic}
    (run : round value parser = .failed diagnostic after) :
    iterate round value parser = .failed diagnostic after := by
  rw [iterate, run]

section Separated

variable {item : Routine α} {items : Array α} {value : α} {inside : List Token} {values : List α}

theorem separatedRound_last (run : item parser = .ok value (parser.past tokens))
    (last : (parser.past tokens).current.kind ≠ .comma) :
    iterate (separatedRound item) items parser =
      .ok (items.push value).toList (parser.past tokens) := by
  apply iterate_done
  rw [separatedRound, bind_eq run, bind_eq (skip_eq_false last)]
  rfl

theorem separatedRound_more (facing : parser.Facing count (tokens ++ [token]))
    (run : item parser = .ok value (parser.past tokens)) (separates : token.kind = .comma) :
    iterate (separatedRound item) items parser =
      iterate (separatedRound item) (items.push value) (parser.past (tokens ++ [token])) := by
  refine iterate_again ?_ (facing.shorter (by simp))
  rw [separatedRound, bind_eq run, bind_eq (skip_eq_true facing.past separates (by decide)),
    Parser.past_append]
  rfl

theorem enclosed_none (facing : parser.Facing count [token]) (closes : token.kind = .closeParen) :
    enclosed item parser = .ok [] (parser.pass token) := by
  rw [enclosed, bind_eq (skip_eq_true facing closes (by decide))]
  rfl

theorem enclosed_some (facing : parser.Facing count (inside ++ [token]))
    (closes : token.kind = .closeParen) (starts : parser.current.kind ≠ .closeParen)
    (run : iterate (separatedRound item) #[] parser = .ok values (parser.past inside)) :
    enclosed item parser = .ok values (parser.past (inside ++ [token])) := by
  rw [enclosed, bind_eq (skip_eq_false starts)]
  simp only [Bool.false_eq_true, if_false]
  rw [separated_eq, bind_eq run, bind_eq (expect_eq facing.past closes (by decide)),
    Parser.past_append]
  rfl

end Separated

end Routine

end Monkey
