import Monkey.Proofs.Parser.Standard

namespace Monkey.Grammar

/-! Chains of operators.

A chain is an operand with any number of links after it, each an operator with one more operand.
It is grouped by powers alone: the last of the weakest operators is at the root, with all that
stands before it on the left and all that stands after it on the right.
-/

/-- An operator with the operand after it. -/
structure Link where
  operator : Token
  operand : Token

namespace Link

def tokens (link : Link) : List Token :=
  [link.operator, link.operand]

def power (powers : Kind → Power) (link : Link) : Power :=
  powers link.operator.kind

theorem length_flatMap_tokens (links : List Link) :
    (links.flatMap tokens).length = 2 * links.length := by
  induction links with
  | nil => rfl
  | cons link links ih =>
      rw [List.flatMap_cons, List.length_append, ih, tokens, List.length_cons]
      simp only [List.length_cons, List.length_nil]
      omega

theorem drop_flatMap_tokens (links : List Link) (rest : List Token) :
    (links.flatMap tokens ++ rest).drop (2 * links.length) = rest :=
  List.drop_left' (length_flatMap_tokens links)

end Link

/-- Links taken apart at the last one of the least power. -/
def splitWeakest (powers : Kind → Power) : List Link → Option (List Link × Link × List Link)
  | [] => none
  | link :: links =>
      match splitWeakest powers links with
      | none => some ([], link, [])
      | some (before, weakest, after) =>
          if link.power powers < weakest.power powers then some ([], link, links)
          else some (link :: before, weakest, after)

section Split

variable {powers : Kind → Power} {links before after : List Link} {link : Link}

theorem splitWeakest_eq_none_iff : splitWeakest powers links = none ↔ links = [] := by
  cases links with
  | nil => simp [splitWeakest]
  | cons link links =>
      simp only [splitWeakest, reduceCtorEq, iff_false]
      split
      · exact Option.some_ne_none _
      · split <;> exact Option.some_ne_none _

theorem of_splitWeakest (split : splitWeakest powers links = some (before, link, after)) :
    links = before ++ link :: after ∧
      (∀ other ∈ before, link.power powers ≤ other.power powers) ∧
      ∀ other ∈ after, link.power powers < other.power powers := by
  induction links generalizing before link after with
  | nil => cases split
  | cons first links ih =>
      rw [splitWeakest] at split
      cases rest : splitWeakest powers links with
      | none =>
          rw [rest] at split
          cases split
          exact ⟨by rw [splitWeakest_eq_none_iff.1 rest]; rfl, List.forall_mem_nil _,
            List.forall_mem_nil _⟩
      | some parts =>
          obtain ⟨earlier, weakest, later⟩ := parts
          obtain ⟨joined, least, last⟩ := ih rest
          rw [rest] at split
          dsimp only at split
          split at split
          · rename_i weaker
            cases split
            refine ⟨rfl, List.forall_mem_nil _, ?_⟩
            rw [joined]
            refine List.forall_mem_append.2 ⟨?_, List.forall_mem_cons.2 ⟨weaker, ?_⟩⟩
            · exact fun other member => Nat.lt_of_lt_of_le weaker (least other member)
            · exact fun other member => Nat.lt_trans weaker (last other member)
          · rename_i stronger
            cases split
            exact ⟨by rw [joined]; rfl,
              List.forall_mem_cons.2 ⟨Nat.le_of_not_lt stronger, least⟩, last⟩

/-- The place where links are taken apart is the only one where nothing before it is weaker and
everything after it is stronger. -/
theorem splitWeakest_eq_some_iff :
    splitWeakest powers links = some (before, link, after) ↔
      links = before ++ link :: after ∧
        (∀ other ∈ before, link.power powers ≤ other.power powers) ∧
        ∀ other ∈ after, link.power powers < other.power powers := by
  refine ⟨of_splitWeakest, ?_⟩
  rintro ⟨rfl, least, last⟩
  induction before with
  | nil =>
      rw [List.nil_append, splitWeakest]
      cases rest : splitWeakest powers after with
      | none => rw [splitWeakest_eq_none_iff.1 rest]
      | some parts =>
          obtain ⟨earlier, weakest, later⟩ := parts
          have member : weakest ∈ after := by simp [(of_splitWeakest rest).1]
          dsimp only
          rw [if_pos (last weakest member)]
  | cons first before ih =>
      obtain ⟨weaker, rest⟩ := List.forall_mem_cons.1 least
      have stronger : ¬ first.power powers < link.power powers := Nat.not_lt_of_le weaker
      rw [List.cons_append, splitWeakest, ih rest]
      dsimp only
      rw [if_neg stronger]

end Split

/-- The tree of a chain. -/
def grouped (powers : Kind → Power) (first : Token) (links : List Link) : Expr :=
  match _parts : splitWeakest powers links with
  | none => .ofToken first
  | some (before, link, after) =>
      .binary link.operator (grouped powers first before) link.operator.text
        (grouped powers link.operand after)
termination_by links.length
decreasing_by
  all_goals
    rw [(of_splitWeakest _parts).1, List.length_append, List.length_cons]
    omega

section Grouped

variable {powers : Kind → Power} {first : Token} {before after : List Link} {link : Link}

theorem grouped_nil : grouped powers first [] = .ofToken first := by
  rw [grouped]
  rfl

theorem grouped_append (least : ∀ other ∈ before, link.power powers ≤ other.power powers)
    (last : ∀ other ∈ after, link.power powers < other.power powers) :
    grouped powers first (before ++ link :: after) =
      .binary link.operator (grouped powers first before) link.operator.text
        (grouped powers link.operand after) := by
  have split : splitWeakest powers (before ++ link :: after) = some (before, link, after) :=
    splitWeakest_eq_some_iff.2 ⟨rfl, least, last⟩
  rw [grouped]
  split
  · rename_i none
    rw [none] at split
    cases split
  · rename_i some
    rw [some] at split
    cases split
    rfl

end Grouped

end Monkey.Grammar
