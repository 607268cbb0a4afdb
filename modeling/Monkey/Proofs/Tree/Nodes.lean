import Monkey.Tree.Basic

namespace Monkey

/-! The nodes of a tree, and the tokens they are made from.

Nodes are listed in the order in which their tokens stand in a source.  The statement that is
only an expression has no token of its own: it shares one with what stands in it.
-/

inductive Node where
  | expression (tree : Expr)
  /-- A name that is bound: after `let`, or as a parameter. -/
  | binder (name : Identifier)
  | statement (tree : Statement)
  | block (tree : Block)

namespace Node

def token : Node → Token
  | .expression tree => tree.token
  | .binder name => name.token
  | .statement tree => tree.token
  | .block tree => tree.token

/-- The token of a node, unless the node shares it. -/
def listed? : Node → Option Token
  | .statement (.expression ..) => none
  | node => some node.token

/-- The operators that stand between two operands. -/
def binaryOperators : List Kind :=
  [.equals, .notEquals, .less, .greater, .plus, .dash, .star, .slash]

/-- The token is of the kind that the form of the node asks for, and what the node says is
what the token says. -/
def Fits : Node → Prop
  | .expression (.identifier name) | .binder name =>
      name.token.kind = .identifier ∧ name.value = name.token.text
  | .expression (.integer token _) => token.kind = .integer
  | .expression (.boolean token value) =>
      token.kind = if value then .trueKeyword else .falseKeyword
  | .expression (.unary token operator _) =>
      (token.kind = .not ∨ token.kind = .dash) ∧ operator = token.text
  | .expression (.binary token _ operator _) =>
      token.kind ∈ binaryOperators ∧ operator = token.text
  | .expression (.conditional token ..) => token.kind = .ifKeyword
  | .expression (.function token ..) => token.kind = .functionKeyword
  | .expression (.call token ..) => token.kind = .openParen
  | .statement (.binding token ..) => token.kind = .letKeyword
  | .statement (.result token _) => token.kind = .returnKeyword
  | .statement (.expression ..) => True
  | .block (.mk token _) => token.kind = .openCurly

end Node

mutual

def Expr.nodes : Expr → List Node
  | .identifier name => [.expression (.identifier name)]
  | .integer token value => [.expression (.integer token value)]
  | .boolean token value => [.expression (.boolean token value)]
  | .unary token operator operand =>
      .expression (.unary token operator operand) :: operand.nodes
  | .binary token left operator right =>
      left.nodes ++ .expression (.binary token left operator right) :: right.nodes
  | .conditional token condition consequence alternative =>
      .expression (.conditional token condition consequence alternative) ::
        (condition.nodes ++ (consequence.nodes ++ alternativeNodes alternative))
  | .function token parameters body =>
      .expression (.function token parameters body) :: (parameters.map .binder ++ body.nodes)
  | .call token callee arguments =>
      callee.nodes ++ .expression (.call token callee arguments) :: argumentsNodes arguments
termination_by structural tree => tree

def Statement.nodes : Statement → List Node
  | .binding token name value =>
      .statement (.binding token name value) :: .binder name :: value.nodes
  | .result token value => .statement (.result token value) :: value.nodes
  | .expression token value => .statement (.expression token value) :: value.nodes
termination_by structural tree => tree

def Block.nodes : Block → List Node
  | .mk token statements => .block (.mk token statements) :: statementsNodes statements
termination_by structural tree => tree

def alternativeNodes : Option Block → List Node
  | none => []
  | some block => block.nodes
termination_by structural tree => tree

def argumentsNodes : List Expr → List Node
  | [] => []
  | argument :: arguments => argument.nodes ++ argumentsNodes arguments
termination_by structural tree => tree

def statementsNodes : List Statement → List Node
  | [] => []
  | statement :: statements => statement.nodes ++ statementsNodes statements
termination_by structural tree => tree

end

theorem argumentsNodes_eq_flatMap (arguments : List Expr) :
    argumentsNodes arguments = arguments.flatMap Expr.nodes := by
  induction arguments with
  | nil => rfl
  | cons argument arguments ih => exact congrArg (argument.nodes ++ ·) ih

theorem statementsNodes_eq_flatMap (statements : List Statement) :
    statementsNodes statements = statements.flatMap Statement.nodes := by
  induction statements with
  | nil => rfl
  | cons statement statements ih => exact congrArg (statement.nodes ++ ·) ih

def Program.nodes (program : Program) : List Node :=
  statementsNodes program.statements

/-- The tokens of nodes, without those that are shared. -/
def listed (nodes : List Node) : List Token :=
  nodes.filterMap Node.listed?

/-- The first token listed comes after nothing but opening parentheses. -/
def Leads (nodes : List Node) (tokens : List Token) : Prop :=
  ∃ opening first after, tokens = opening ++ first :: after ∧
    (∀ token ∈ opening, token.kind = .openParen) ∧ (listed nodes).head? = some first

/-- The nodes are made of the tokens, of each token at most one node that does not share it, and
in the same order.  A statement that is only an expression begins where the expression does,
with the parentheses around it. -/
structure MadeOf (nodes : List Node) (tokens : List Token) : Prop where
  fit : ∀ node ∈ nodes, node.Fits
  inOrder : (listed nodes).Sublist tokens
  shared : ∀ token value, .statement (.expression token value) ∈ nodes →
    ∃ before after, tokens = before ++ token :: after ∧ Leads value.nodes (token :: after)

section Listed

variable {node : Node} {nodes others : List Node} {tokens more : List Token} {first : Token}

theorem listed_append : listed (nodes ++ others) = listed nodes ++ listed others :=
  List.filterMap_append

/-- A node that does not share its token. -/
theorem listed_cons (own : node.listed? = some first) :
    listed (node :: nodes) = first :: listed nodes :=
  List.filterMap_cons_some own

theorem Leads.own (own : node.listed? = some first) : Leads (node :: nodes) (first :: tokens) :=
  ⟨[], first, tokens, rfl, by simp, by rw [listed_cons own]; rfl⟩

theorem Leads.extend (leads : Leads nodes tokens) : Leads nodes (tokens ++ more) := by
  obtain ⟨opening, first, after, rfl, parens, head⟩ := leads
  exact ⟨opening, first, after ++ more, by simp, parens, head⟩

theorem Leads.append (leads : Leads nodes tokens) : Leads (nodes ++ others) (tokens ++ more) := by
  obtain ⟨opening, first, after, whole, parens, head⟩ :=
    (leads.extend : Leads nodes (tokens ++ more))
  refine ⟨opening, first, after, whole, parens, ?_⟩
  rw [listed_append, List.head?_append, head]
  rfl

theorem Leads.open {opening : Token} (leads : Leads nodes tokens)
    (opens : opening.kind = .openParen) : Leads nodes (opening :: tokens) := by
  obtain ⟨others, first, after, rfl, parens, head⟩ := leads
  exact ⟨opening :: others, first, after, rfl, List.forall_mem_cons.2 ⟨opens, parens⟩, head⟩

theorem Leads.ne_nil (leads : Leads nodes tokens) : tokens ≠ [] := by
  obtain ⟨opening, first, after, rfl, _⟩ := leads
  simp

end Listed

namespace MadeOf

variable {node : Node} {nodes others : List Node} {tokens more : List Token} {token : Token}

theorem nil : MadeOf [] tokens :=
  ⟨by simp, List.nil_sublist tokens, by simp⟩

theorem append (first : MadeOf nodes tokens) (second : MadeOf others more) :
    MadeOf (nodes ++ others) (tokens ++ more) := by
  refine ⟨List.forall_mem_append.2 ⟨first.fit, second.fit⟩, ?_, ?_⟩
  · rw [listed_append]
    exact first.inOrder.append second.inOrder
  · intro token value member
    rcases List.mem_append.1 member with early | late
    · obtain ⟨before, after, rfl, leads⟩ := first.shared token value early
      exact ⟨before, after ++ more, by simp, leads.extend⟩
    · obtain ⟨before, after, rfl, leads⟩ := second.shared token value late
      exact ⟨tokens ++ before, after, by simp, leads⟩

/-- Tokens of which no node is made do no harm. -/
theorem before (made : MadeOf nodes tokens) : MadeOf nodes (more ++ tokens) :=
  MadeOf.nil.append made

theorem after (made : MadeOf nodes tokens) : MadeOf nodes (tokens ++ more) := by
  have whole : MadeOf (nodes ++ []) (tokens ++ more) := made.append .nil
  rwa [List.append_nil] at whole

/-- A node that does not share its token. -/
theorem one (own : node.listed? = some token) (fits : node.Fits) : MadeOf [node] [token] := by
  refine ⟨by simpa using fits, ?_, ?_⟩
  · rw [listed_cons own]
    exact .refl _
  · intro other value member
    obtain rfl := List.mem_singleton.1 member
    cases own

theorem cons (own : node.listed? = some token) (fits : node.Fits) (rest : MadeOf nodes tokens) :
    MadeOf (node :: nodes) (token :: tokens) :=
  (one own fits).append rest

theorem share {value : Expr} (made : MadeOf value.nodes (token :: tokens))
    (leads : Leads value.nodes (token :: tokens)) :
    MadeOf (Statement.expression token value).nodes (token :: tokens) := by
  refine ⟨List.forall_mem_cons.2 ⟨trivial, made.fit⟩, made.inOrder, ?_⟩
  intro other inside member
  rcases List.mem_cons.1 member with same | deeper
  · cases same
    exact ⟨[], tokens, rfl, leads⟩
  · exact made.shared other inside deeper

/-- Every node, whether it shares its token or not, is made of one of the tokens. -/
theorem token_mem (made : MadeOf nodes tokens) (member : node ∈ nodes) : node.token ∈ tokens := by
  cases own : node.listed? with
  | some token =>
      have same : node.token = token := by
        unfold Node.listed? at own
        split at own
        · cases own
        · exact Option.some.inj own
      rw [same]
      exact made.inOrder.subset (List.mem_filterMap.2 ⟨node, member, own⟩)
  | none =>
      unfold Node.listed? at own
      split at own
      · obtain ⟨before, after, rfl, _⟩ := made.shared _ _ member
        simp [Node.token, Statement.token]
      · cases own

end MadeOf

end Monkey
