import Monkey.Proofs.Parser.Running

namespace Monkey

/-! One routine run from two parsers.

If two parsers see the same for some while, whatever that is taken to mean, the second one does
what the first one does, for as long.  How far a routine looks ahead is said by how much more the
parsers must see than it consumes.
-/

/-- A way for two parsers to see the same so many tokens far. -/
structure Sight (sees : Parser → Parser → Nat → Prop) : Prop where
  mono {parser other : Parser} {count more : Nat} :
    sees parser other more → count ≤ more → sees parser other count
  beyond {parser other : Parser} {count more : Nat} {found : List Diagnostic} :
    sees parser other (count + more) →
      sees (parser.beyond count found) (other.beyond count found) more
  inside {parser other : Parser} {count : Nat} : sees parser other count →
    sees { parser with depth := parser.depth + 1 } { other with depth := other.depth + 1 } count
  depth {parser other : Parser} {count : Nat} :
    sees parser other count → other.depth = parser.depth
  current {parser other : Parser} {count : Nat} :
    sees parser other (count + 1) → other.current = parser.current
  shorter {parser other : Parser} {count : Nat} {found : List Diagnostic} :
    sees parser other count → parser.Standard → other.Standard → parser.taken count ≠ [] →
      (other.beyond count found).pending.length < other.pending.length

theorem Sight.position {sees : Parser → Parser → Nat → Prop} {parser other : Parser} {count : Nat}
    (sight : Sight sees) (seen : sees parser other (count + 1)) :
    other.position = parser.position := by
  rw [Parser.position, Parser.position, sight.current seen]

/-- What an outcome says about the same routine run from another parser: a value is the same if
the parsers see the same `ahead` tokens further than is consumed, and a failure if they see the
same one token further. -/
def Contract.echoed {α : Type} (sees : Parser → Parser → Nat → Prop) (ahead : Nat)
    (parser other : Parser) (outcome : Outcome α) : Contract α where
  ok value count found :=
    sees parser other (count + ahead) → outcome = .ok value (other.beyond count found)
  failed diagnostic count found :=
    sees parser other (count + 1) → outcome = .failed diagnostic (other.beyond count found)
  endless := True

/-- The routine does from one parser what it does from another one that sees the same. -/
def Routine.Echoes {α : Type} (sees : Parser → Parser → Nat → Prop) (ahead : Nat)
    (routine : Routine α) : Prop :=
  ∀ parser other : Parser, parser.Standard → other.Standard →
    (routine parser).Meets parser (.echoed sees ahead parser other (routine other))

namespace Routine.Echoes

variable {α β : Type} {sees : Parser → Parser → Nat → Prop} {ahead : Nat} {routine : Routine α}

theorem pure {value : α} : (Pure.pure value : Routine α).Echoes sees ahead := by
  intro parser other standard otherStandard
  apply Outcome.Meets.pure
  intro seen
  rw [pure_apply, Parser.beyond_zero]

theorem fail {cause : Cause} (sight : Sight sees) :
    (Routine.fail cause : Routine α).Echoes sees ahead := by
  intro parser other standard otherStandard
  apply Outcome.Meets.fail
  intro seen
  rw [Routine.fail, sight.position seen, Parser.beyond_zero]

theorem advance (sight : Sight sees) : Routine.advance.Echoes sees ahead := by
  intro parser other standard otherStandard
  apply Outcome.Meets.advance
  intro seen
  rw [Routine.advance, sight.current (sight.mono seen (Nat.le_add_right 1 ahead)),
    Parser.advance_eq_beyond]

theorem expect {kind : Kind} (sight : Sight sees) :
    (Routine.expect kind).Echoes sees ahead := by
  intro parser other standard otherStandard
  apply Outcome.Meets.expect
  · intro present seen
    have same := sight.current (sight.mono seen (Nat.le_add_right 1 ahead))
    rw [expect_beyond (by rwa [same]), same]
  · intro absent seen
    rw [Routine.expect, sight.current seen, if_neg absent, Routine.fail, sight.position seen,
      Parser.beyond_zero]

theorem atom (sight : Sight sees) : Routine.atom.Echoes sees ahead := by
  intro parser other standard otherStandard
  rw [atom_apply, atom_apply]
  apply Outcome.Meets.ok
  intro seen
  rw [sight.current (sight.mono seen (Nat.le_add_right 1 ahead))]

theorem bind {next : α → Routine β} (sight : Sight sees) (near : ahead ≤ 1)
    (first : routine.Echoes sees ahead) (later : ∀ value, (next value).Echoes sees ahead) :
    (routine >>= next).Echoes sees ahead := by
  intro parser other standard otherStandard
  apply (first parser other standard otherStandard).bind
  · intro diagnostic count found same seen
    exact bind_failed (same seen)
  · intro _
    trivial
  · intro value count found same
    apply (later value (parser.beyond count found) (other.beyond count found) standard.beyond
      otherStandard.beyond).mono
    · intro result more others repeated seen
      rw [bind_eq (same (sight.mono seen (by omega))),
        repeated (sight.beyond (sight.mono seen (by omega))), Parser.beyond_beyond]
    · intro diagnostic more others repeated seen
      rw [bind_eq (same (sight.mono seen (by omega))),
        repeated (sight.beyond (sight.mono seen (by omega))), Parser.beyond_beyond]
    · intro _
      trivial

theorem nested (sight : Sight sees) (inside : routine.Echoes sees ahead) :
    (Routine.nested routine).Echoes sees ahead := by
  intro parser other standard otherStandard
  apply Outcome.Meets.nested
  · intro full seen
    rw [nested_refused (by rwa [sight.depth seen]), Routine.fail, sight.position seen,
      Parser.beyond_zero]
  · intro room
    apply (inside _ _ standard.inside otherStandard.inside).mono
    · intro value count found same seen
      rw [nested_apply (by rwa [sight.depth seen]), same (sight.inside seen)]
      rfl
    · intro diagnostic count found same seen
      rw [nested_apply (by rwa [sight.depth seen]), same (sight.inside seen)]
      rfl
    · intro _
      trivial

theorem iterate {round : α → Routine (Round α β)} (sight : Sight sees) (near : ahead ≤ 1)
    (step : ∀ value, (round value).Echoes sees ahead) (start : α) :
    Routine.Echoes sees ahead (Routine.iterate round start) := by
  intro parser other standard otherStandard
  -- As far as both parsers see the same, the other loop has come to the same round.
  apply Outcome.Meets.iterate (fun value count found => sees parser other (count + ahead) →
    Routine.iterate round start other = Routine.iterate round value (other.beyond count found))
  · intro value count found reached
    apply (step value (parser.beyond count found) (other.beyond count found) standard.beyond
      otherStandard.beyond).mono
    · intro decision more others repeated
      cases decision with
      | again value =>
          refine ⟨.inr trivial, ?_⟩
          intro consumed seen
          have rest : sees (parser.beyond count found) (other.beyond count found)
              (more + ahead) := sight.beyond (sight.mono seen (by omega))
          have fewer : ((other.beyond count found).beyond more others).pending.length <
              (other.beyond count found).pending.length :=
            sight.shorter (sight.mono rest (Nat.le_add_right more ahead)) standard.beyond
              otherStandard.beyond consumed
          rw [reached (sight.mono seen (by omega)), iterate_again (repeated rest) fewer,
            Parser.beyond_beyond]
      | done result =>
          intro seen
          rw [reached (sight.mono seen (by omega)),
            iterate_done (repeated (sight.beyond (sight.mono seen (by omega)))),
            Parser.beyond_beyond]
    · intro diagnostic more others repeated seen
      rw [reached (sight.mono seen (by omega)),
        iterate_failed (repeated (sight.beyond (sight.mono seen (by omega)))),
        Parser.beyond_beyond]
    · intro _
      trivial
  · intro _
    rw [Parser.beyond_zero]

end Routine.Echoes

end Monkey
