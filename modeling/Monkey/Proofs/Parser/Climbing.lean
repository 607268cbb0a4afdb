import Monkey.Proofs.Grammar.Chain
import Monkey.Proofs.Parser.Running
import Monkey.Proofs.Parser.Session
import Monkey.Tree.Rendering

namespace Monkey

open Grammar

/-! Reading chains of operators, with any powers.

An operand on the right is read with the power of the operator before it, and so it takes all that
binds tighter.  What was read on the left is never bound tighter than by the operator that comes
next.  So each operator, when it is read, is the last of the weakest so far.
-/

theorem Power.rank_lt (power : Power) : power.rank < 7 := by
  cases power <;> decide

/-- A link whose operator stands between operands and whose operand stands alone. -/
structure Table.Links (table : Table) (powers : Kind → Power) (link : Link) : Prop where
  operator : table.infixRule link.operator.kind = some ⟨link.power powers, .binary⟩
  operand : table.prefixForm link.operand.kind = some .atom

/-- Links that bind tighter than some power, before a token that does not. -/
structure Table.Climbs (table : Table) (powers : Kind → Power) (power : Power)
    (links : List Link) (next : Token) : Prop where
  each : ∀ link ∈ links, table.Links powers link
  tighter : ∀ link ∈ links, power < Link.power powers link
  stops : ∀ rule, table.infixRule next.kind = some rule → ¬ power < rule.power

namespace Table.Climbs

variable {table : Table} {powers : Kind → Power} {power : Power} {link : Link}
  {links strong weak : List Link} {next finish : Token} {rest : List Token}

theorem head (climbs : table.Climbs powers power (link :: links) next) :
    table.Links powers link ∧ power < link.power powers :=
  ⟨climbs.each _ List.mem_cons_self, climbs.tighter _ List.mem_cons_self⟩

theorem drop (climbs : table.Climbs powers power (strong ++ weak) next) :
    table.Climbs powers power weak next :=
  ⟨fun other member => climbs.each other (List.mem_append_right _ member),
    fun other member => climbs.tighter other (List.mem_append_right _ member), climbs.stops⟩

/-- What binds tighter than the first operator is followed by something that does not. -/
theorem operand
    (climbs : table.Climbs powers power (link :: (strong ++ weak)) (rest.head?.getD finish))
    (stronger : ∀ other ∈ strong, link.power powers < other.power powers)
    (weaker : ∀ other ∈ weak.head?, ¬ link.power powers < other.power powers) :
    table.Climbs powers (link.power powers) strong
      ((weak.flatMap Link.tokens ++ rest).head?.getD finish) := by
  refine ⟨?_, stronger, ?_⟩
  · intro other member
    exact climbs.each other (List.mem_cons_of_mem _ (List.mem_append_left _ member))
  · intro rule registered tighter
    cases weak with
    | nil => exact climbs.stops rule registered (Nat.lt_trans climbs.head.2 tighter)
    | cons first weak =>
        have operator := (climbs.each first (by simp)).operator
        have same : rule = ⟨first.power powers, .binary⟩ :=
          Option.some.inj (registered.symm.trans operator)
        rw [same] at tighter
        exact weaker first rfl tighter

end Table.Climbs

namespace Grammar

/-- Links are those that bind tighter than a power and then those from the first that does not. -/
theorem exists_stronger (powers : Kind → Power) (power : Power) (links : List Link) :
    ∃ strong weak, links = strong ++ weak ∧ (∀ other ∈ strong, power < other.power powers) ∧
      ∀ other ∈ weak.head?, ¬ power < other.power powers := by
  refine ⟨links.takeWhile (power < ·.power powers), links.dropWhile (power < ·.power powers),
    List.takeWhile_append_dropWhile.symm, ?_, ?_⟩
  · intro other member
    exact of_decide_eq_true (List.all_eq_true.1 List.all_takeWhile other member)
  · intro other member
    have stops := List.head?_dropWhile_not (fun link : Link => decide (power < link.power powers))
      links
    rw [Option.mem_def.1 member] at stops
    simpa using stops

/-- What comes after an operator and all that binds tighter is not stronger than anything before
it, if the operator is not. -/
theorem weakest_of_weaker {powers : Kind → Power} {link next : Link} {done strong : List Link}
    (least : ∀ other ∈ done, link.power powers ≤ other.power powers)
    (stronger : ∀ other ∈ strong, link.power powers < other.power powers)
    (weaker : ¬ link.power powers < next.power powers) :
    ∀ other ∈ done ++ link :: strong, next.power powers ≤ other.power powers := by
  have below : next.power powers ≤ link.power powers := Nat.le_of_not_lt weaker
  intro other member
  rcases List.mem_append.1 member with before | among
  · exact Nat.le_trans below (least other before)
  · cases among with
    | head => exact below
    | tail _ after => exact Nat.le_trans below (Nat.le_of_lt (stronger other after))

end Grammar

namespace Routine

variable {parser : Parser} {powers : Kind → Power} {count : Nat} {power : Power} {first : Token}
  {links done : List Link} {rest : List Token}

/-- What is recorded at the operands of links. -/
def operandExcess (links : List Link) : List Diagnostic :=
  links.flatMap (·.operand.excess)

/-- At this many levels, with this power, every chain that binds tighter is read as it is
grouped. -/
def ReadsChains (powers : Kind → Power) (count : Nat) (power : Power) : Prop :=
  ∀ (parser : Parser) (first : Token) (links : List Link) (rest : List Token),
    parser.pending = first :: (links.flatMap Link.tokens ++ rest) →
    parser.depth + count ≤ nestingLimit →
    parser.table.prefixForm first.kind = some .atom →
    parser.table.Climbs powers power links (rest.head?.getD parser.finish) →
    (levels count).expression power parser =
      .ok (grouped powers first links)
        (parser.beyond (2 * links.length + 1) (first.excess ++ operandExcess links))

/-- The operator takes what binds tighter than itself as its operand on the right. -/
theorem continued_link {link : Link} {strong : List Link} (left : Expr)
    (reads : ReadsChains powers count (link.power powers))
    (pending : parser.pending = link.operator :: link.operand ::
      (strong.flatMap Link.tokens ++ rest))
    (room : parser.depth + count ≤ nestingLimit)
    (links : parser.table.Links powers link) (tighter : power < link.power powers)
    (climbs : parser.table.Climbs powers (link.power powers) strong
      (rest.head?.getD parser.finish)) :
    continued (levels count) power left parser =
      .ok (.again (.binary link.operator left link.operator.text
          (grouped powers link.operand strong)))
        (parser.beyond (2 * (strong.length + 1)) (operandExcess (link :: strong))) := by
  have current : parser.current = link.operator := by simp [Parser.current, pending]
  have advanced : advance parser = .ok link.operator (parser.beyond 1 []) := by
    rw [advance, current, Parser.advance_eq_beyond]
  have operand := reads (parser.beyond 1 []) link.operand strong rest (by simp [pending]) room
    links.operand climbs
  have counted : 1 + (2 * strong.length + 1) = 2 * (strong.length + 1) := by omega
  rw [Parser.beyond_beyond, counted, List.nil_append] at operand
  rw [continued_apply, current, links.operator]
  dsimp only
  rw [if_pos tighter]
  refine bind_eq ?_
  show Routine.binary (levels count) left _ parser = _
  rw [Routine.binary, bind_eq advanced, bind_eq operand]
  rfl

theorem continued_stops {left : Expr}
    (stops : ∀ rule, parser.table.infixRule parser.current.kind = some rule →
      ¬ power < rule.power) :
    continued (levels count) power left parser = .ok (.done left) parser := by
  rw [continued_apply]
  cases registered : parser.table.infixRule parser.current.kind with
  | none => rfl
  | some rule => exact if_neg (stops rule registered)

/-- The loop has grouped the links that are done, none of which is weaker than the next one. -/
theorem iterate_chain (deeper : ∀ stronger, power < stronger → ReadsChains powers count stronger)
    (pending : parser.pending = links.flatMap Link.tokens ++ rest)
    (room : parser.depth + count ≤ nestingLimit)
    (climbs : parser.table.Climbs powers power links (rest.head?.getD parser.finish))
    (weakest : ∀ link ∈ links.head?, ∀ other ∈ done,
      link.power powers ≤ other.power powers) :
    iterate (continued (levels count) power) (grouped powers first done) parser =
      .ok (grouped powers first (done ++ links))
        (parser.beyond (2 * links.length) (operandExcess links)) := by
  induction left : links.length using Nat.strongRecOn generalizing parser links done with
  | ind left ih =>
      subst left
      cases links with
      | nil =>
          have current : parser.current = rest.head?.getD parser.finish := by
            simp [Parser.current, pending, List.head?_eq_getElem?]
          rw [← current] at climbs
          rw [iterate_done (continued_stops climbs.stops), List.append_nil]
          exact congrArg _ Parser.beyond_zero.symm
      | cons link links =>
          obtain ⟨strong, weak, rfl, stronger, weaker⟩ :=
            exists_stronger powers (link.power powers) links
          obtain ⟨linked, tighter⟩ := climbs.head
          have split : parser.pending = link.operator :: link.operand ::
              (strong.flatMap Link.tokens ++ (weak.flatMap Link.tokens ++ rest)) := by
            simp [pending, Link.tokens]
          have round := continued_link (grouped powers first done) (deeper _ tighter) split room
            linked tighter (climbs.operand stronger weaker)
          -- The operator is the last of the weakest of all that is done now.
          have least : ∀ other ∈ done, link.power powers ≤ other.power powers := weakest link rfl
          have grouping := @grouped_append powers first done strong link least stronger
          have consumed : (parser.beyond (2 * (strong.length + 1))
              (operandExcess (link :: strong))).pending = weak.flatMap Link.tokens ++ rest := by
            have whole : parser.pending = (link :: strong).flatMap Link.tokens ++
                (weak.flatMap Link.tokens ++ rest) := by
              simp [pending]
            rw [Parser.beyond_pending, whole]
            exact Link.drop_flatMap_tokens (link :: strong) _
          have shorter : (parser.beyond (2 * (strong.length + 1))
              (operandExcess (link :: strong))).pending.length < parser.pending.length := by
            simp only [Parser.beyond_pending, split, List.length_drop, List.length_cons]
            omega
          have fewer : weak.length < (link :: (strong ++ weak)).length := by
            simp only [List.length_cons, List.length_append]
            omega
          have counted : 2 * (strong.length + 1) + 2 * weak.length =
              2 * (link :: (strong ++ weak)).length := by
            simp only [List.length_cons, List.length_append]
            omega
          have after : (parser.beyond (2 * (strong.length + 1))
              (operandExcess (link :: strong))).table.Climbs powers power weak
              (rest.head?.getD parser.finish) :=
            Table.Climbs.drop (show parser.table.Climbs powers power ((link :: strong) ++ weak) _
              from climbs)
          have later := ih weak.length fewer consumed room after
            (fun next isNext => weakest_of_weaker least stronger (weaker next isNext)) rfl
          rw [iterate_again round shorter, ← grouping]
          refine later.trans ?_
          rw [Parser.beyond_beyond, counted]
          simp [operandExcess]

theorem expressionBody_chain
    (deeper : ∀ stronger, power < stronger → ReadsChains powers count stronger)
    (pending : parser.pending = first :: (links.flatMap Link.tokens ++ rest))
    (room : parser.depth + count ≤ nestingLimit)
    (atomic : parser.table.prefixForm first.kind = some .atom)
    (climbs : parser.table.Climbs powers power links (rest.head?.getD parser.finish)) :
    expressionBody (levels count) power parser =
      .ok (grouped powers first links)
        (parser.beyond (2 * links.length + 1) (first.excess ++ operandExcess links)) := by
  have current : parser.current = first := by simp [Parser.current, pending]
  have begun : leading (levels count) parser =
      .ok (grouped powers first []) (parser.beyond 1 first.excess) := by
    rw [leading_apply, current, atomic, grouped_nil, ← current]
    exact atom_apply
  have after : (parser.beyond 1 first.excess).pending = links.flatMap Link.tokens ++ rest := by
    simp [pending]
  have later := @iterate_chain (parser.beyond 1 first.excess) powers count power first links []
    rest deeper after room climbs (by simp)
  refine (bind_eq begun).trans (later.trans ?_)
  rw [Parser.beyond_beyond, Nat.add_comm 1]
  rfl

/-- A chain is read if as many levels are left as there are powers to climb. -/
theorem levels_readsChains (enough : 7 ≤ count + power.rank) : ReadsChains powers count power := by
  induction count generalizing power with
  | zero =>
      have bounded := power.rank_lt
      omega
  | succ count ih =>
      intro parser first links rest pending room atomic climbs
      have deeper : ∀ stronger, power < stronger → ReadsChains powers count stronger := by
        intro stronger tighter
        have higher : power.rank < stronger.rank := tighter
        exact ih (by omega)
      have below : parser.depth + 1 + count ≤ nestingLimit := by omega
      exact nested_beyond (by omega) (expressionBody_chain deeper pending below atomic climbs)

end Routine

/-- Registers these kinds as operators that stand between operands, with these powers. -/
def Operation.binaries (kinds : List Kind) (powers : Kind → Power) : List Operation :=
  kinds.map fun kind => .setInfixRule kind ⟨powers kind, .binary⟩

theorem Parser.perform_binaries {start parser : Parser} {kinds : List Kind}
    {powers : Kind → Power}
    (performed : start.perform (Operation.binaries kinds powers) = some parser) :
    parser.table.prefixForm = start.table.prefixForm ∧
      ∀ kind, parser.table.infixRule kind =
        if kind ∈ kinds then some ⟨powers kind, .binary⟩ else start.table.infixRule kind := by
  induction kinds generalizing start with
  | nil =>
      cases performed
      exact ⟨rfl, fun kind => (if_neg List.not_mem_nil).symm⟩
  | cons first kinds ih =>
      obtain ⟨forms, rules⟩ := @ih (start.setTable _) performed
      refine ⟨forms, ?_⟩
      intro kind
      rw [rules]
      by_cases again : kind ∈ kinds
      · rw [if_pos again, if_pos (List.mem_cons_of_mem first again)]
      · rw [if_neg again]
        show (if kind = first then _ else _) = _
        by_cases here : kind = first
        · rw [if_pos here, here, if_pos List.mem_cons_self]
        · rw [if_neg here, if_neg fun member => (List.mem_cons.1 member).elim here again]

/-- A chain of operands that stand alone, with operators of any powers between them, is grouped by
the powers alone, each time at the last of the weakest operators.  However long it is, it opens no
more levels than there are powers. -/
theorem expression_chain {start parser : Parser} {kinds : List Kind} {powers : Kind → Power}
    {first : Token} {links : List Link}
    (atoms : ∀ kind ∈ PrefixForm.atom.kinds, start.table.prefixForm kind = some .atom)
    (above : ∀ kind ∈ kinds, .lowest < powers kind)
    (performed : start.perform (Operation.binaries kinds powers) = some parser)
    (leading : first :: links.flatMap Link.tokens <+: parser.pending)
    (operators : ∀ link ∈ links, link.operator.kind ∈ kinds)
    (operands : ∀ token ∈ first :: links.map Link.operand, token.kind ∈ PrefixForm.atom.kinds)
    (stops : parser.table.infixRule (parser.token (2 * links.length + 1)).kind = none)
    (shallow : parser.depth ≤ 121) :
    Routine.expression .lowest parser =
      .ok (grouped powers first links)
        (parser.beyond (2 * links.length + 1)
          ((first :: links.map Link.operand).flatMap Token.excess)) := by
  obtain ⟨forms, rules⟩ := Parser.perform_binaries performed
  obtain ⟨rest, pending⟩ := leading
  obtain ⟨isAtom, areAtoms⟩ := List.forall_mem_cons.1 operands
  have atomic : ∀ kind ∈ PrefixForm.atom.kinds, parser.table.prefixForm kind = some .atom := by
    rw [forms]
    exact atoms
  have next : parser.token (2 * links.length + 1) = rest.head?.getD parser.finish := by
    rw [Parser.token, ← pending, List.cons_append, List.getElem?_cons_succ,
      ← Link.length_flatMap_tokens, List.getElem?_append_right (Nat.le_refl _), Nat.sub_self,
      List.head?_eq_getElem?]
  have climbs : parser.table.Climbs powers .lowest links (rest.head?.getD parser.finish) := by
    refine ⟨?_, ?_, ?_⟩
    · intro link member
      refine ⟨?_, atomic _ (areAtoms _ (List.mem_map_of_mem member))⟩
      rw [rules, if_pos (operators link member)]
      rfl
    · intro link member
      exact above _ (operators link member)
    · intro rule registered
      rw [← next, stops] at registered
      cases registered
  have enough : 7 ≤ nestingLimit - parser.depth + Power.lowest.rank := by
    simp only [nestingLimit, Power.rank]
    omega
  have room : parser.depth + (nestingLimit - parser.depth) ≤ nestingLimit := by
    simp only [nestingLimit]
    omega
  have run := Routine.levels_readsChains enough parser first links rest pending.symm room
    (atomic _ isAtom) climbs
  refine run.trans ?_
  rw [List.flatMap_cons, List.flatMap_map]
  rfl

/-- Here a comma stands between operands, and a dash binds tighter than it. -/
theorem expression_chain_comma :
    ∃ parser tree,
      (Parser.ofSource "a,b-1,c;" none).perform (Operation.binaries [.dash, .comma]
        fun kind => if kind = .dash then .call else .sum) = some parser ∧
      Routine.expression .lowest parser = .ok tree (parser.beyond 7 []) ∧
      tree.text = "((a , (b - 1)) , c)" := by
  have pending : (Parser.ofSource "a,b-1,c;" none).pending =
      ⟨.identifier, "a", .between "shell" 0 1⟩ ::
        [Link.mk ⟨.comma, ",", .between "shell" 1 2⟩ ⟨.identifier, "b", .between "shell" 2 3⟩,
          ⟨⟨.dash, "-", .between "shell" 3 4⟩, ⟨.integer, "1", .between "shell" 4 5⟩⟩,
          ⟨⟨.comma, ",", .between "shell" 5 6⟩, ⟨.identifier, "c", .between "shell" 6 7⟩⟩].flatMap
          Link.tokens ++ [⟨.semicolon, ";", .between "shell" 7 8⟩] := by decide +kernel
  have run := @expression_chain (.ofSource "a,b-1,c;" none) _ [.dash, .comma]
    (fun kind => if kind = .dash then .call else .sum) _ _
    (fun kind => Table.standard_prefixForm_iff.2) (by decide) rfl ⟨_, pending.symm⟩ (by decide)
    (by decide) (by decide +kernel) (by decide)
  exact ⟨_, _, rfl, run, by decide +kernel⟩

end Monkey
