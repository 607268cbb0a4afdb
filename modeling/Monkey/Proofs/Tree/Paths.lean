import Monkey.Proofs.Tree.Nodes

namespace Monkey

/-! Paths down a tree.

Each edge of a path says what the lower node is to the upper one.  Most of what a node holds was
read one level further in.  Only what stands on the left of an operator, or is called, was read
before the node was begun, at its own level.
-/

/-- What a node is to the one that holds it. -/
inductive Edge where
  | statement
  | name
  /-- The expression of a statement. -/
  | value
  | operand
  | left
  | right
  | condition
  | consequence
  | alternative
  | parameter
  | body
  | callee
  | argument
deriving DecidableEq

namespace Edge

/-- The lower node was read one level further in. -/
def deepens : Edge → Bool
  | .value | .operand | .right | .condition | .consequence | .alternative | .body | .argument =>
      true
  | .statement | .name | .left | .parameter | .callee => false

/-- The upper node goes on with the lower one. -/
def continues : Edge → Bool
  | .left | .callee => true
  | _ => false

end Edge

namespace Node

/-- What a node holds. -/
def children : Node → List (Edge × Node)
  | .expression (.identifier _) | .expression (.integer ..) | .expression (.boolean ..) => []
  | .expression (.unary _ _ operand) => [(.operand, .expression operand)]
  | .expression (.binary _ left _ right) =>
      [(.left, .expression left), (.right, .expression right)]
  | .expression (.conditional _ condition consequence alternative) =>
      (.condition, .expression condition) :: (.consequence, .block consequence) ::
        alternative.toList.map fun block => (.alternative, .block block)
  | .expression (.function _ parameters body) =>
      (.body, .block body) :: parameters.map fun name => (.parameter, .binder name)
  | .expression (.call _ callee arguments) =>
      (.callee, .expression callee) ::
        arguments.map fun argument => (.argument, .expression argument)
  | .binder _ => []
  | .statement (.binding _ name value) => [(.name, .binder name), (.value, .expression value)]
  | .statement (.result _ value) | .statement (.expression _ value) =>
      [(.value, .expression value)]
  | .block (.mk _ statements) =>
      statements.map fun statement => (.statement, .statement statement)

/-- From a node down to another one, by these edges. -/
inductive Path : Node → List Edge → Node → Prop
  | here {node : Node} : Path node [] node
  | down {node lower last : Node} {edge : Edge} {edges : List Edge}
      (holds : (edge, lower) ∈ node.children) (rest : Path lower edges last) :
      Path node (edge :: edges) last

/-- No path down from the node has as many edges that lead one level further in. -/
def Within (node : Node) (room : Nat) : Prop :=
  ∀ edges last, node.Path edges last → edges.countP Edge.deepens < room

variable {node : Node} {room : Nat}

theorem Within.mono {more : Nat} (within : node.Within room) (le : room ≤ more) :
    node.Within more :=
  fun edges last path => Nat.lt_of_lt_of_le (within edges last path) le

theorem Within.of_children
    (children : ∀ entry ∈ node.children,
      entry.2.Within (if entry.1.deepens then room else room + 1)) :
    node.Within (room + 1) := by
  rintro _ last (_ | @⟨_, lower, _, edge, edges, holds, rest⟩)
  · exact Nat.succ_pos room
  · have few := children _ holds _ _ rest
    rw [List.countP_cons]
    cases deep : edge.deepens with
    | true =>
        rw [deep, if_pos rfl] at few
        exact Nat.succ_lt_succ few
    | false =>
        rw [deep, if_neg Bool.false_ne_true] at few
        exact few

/-- How many more edges a path down from the node can have than those that go on with a node and
twice those that lead one level further in. -/
def slack : Node → Nat
  | .binder _ => 0
  | .expression _ | .statement _ => 1
  | .block _ => 2

theorem slack_children (node : Node) : ∀ entry ∈ node.children,
    1 + entry.2.slack ≤ node.slack + (if entry.1.continues then 1 else 0) +
      2 * (if entry.1.deepens then 1 else 0) := by
  unfold children
  split <;> simp [slack, Edge.continues, Edge.deepens]

/-- A path that does not go on with what was read before leads further in with every other
edge. -/
theorem Path.length_le {edges : List Edge} {last : Node} (path : node.Path edges last) :
    edges.length ≤
      edges.countP Edge.continues + 2 * edges.countP Edge.deepens + node.slack := by
  induction path with
  | here => exact Nat.zero_le _
  | @down node lower last edge edges holds rest ih =>
      have step := node.slack_children _ holds
      dsimp only at step
      rw [List.length_cons, List.countP_cons, List.countP_cons]
      omega

/-- Some path leads down from the one node to the other. -/
def Reaches (node last : Node) : Prop :=
  ∃ edges, node.Path edges last

theorem Reaches.here : node.Reaches node :=
  ⟨[], .here⟩

theorem Reaches.down {lower last : Node} {edge : Edge} (holds : (edge, lower) ∈ node.children)
    (rest : lower.Reaches last) : node.Reaches last := by
  obtain ⟨edges, path⟩ := rest
  exact ⟨edge :: edges, .down holds path⟩

end Node

mutual

theorem Expr.reaches : (tree : Expr) → ∀ node ∈ tree.nodes, (Node.expression tree).Reaches node
  | .identifier _ | .integer .. | .boolean .. => List.forall_mem_singleton.2 .here
  | .unary _ _ operand =>
      List.forall_mem_cons.2 ⟨.here, fun node member =>
        .down (.head _) (operand.reaches node member)⟩
  | .binary _ left _ right =>
      List.forall_mem_append.2 ⟨fun node member => .down (.head _) (left.reaches node member),
        List.forall_mem_cons.2 ⟨.here, fun node member =>
          .down (.tail _ (.head _)) (right.reaches node member)⟩⟩
  | .conditional _ condition consequence alternative =>
      List.forall_mem_cons.2 ⟨.here, List.forall_mem_append.2
        ⟨fun node member => .down (.head _) (condition.reaches node member),
          List.forall_mem_append.2
            ⟨fun node member => .down (.tail _ (.head _)) (consequence.reaches node member),
              fun node member => by
                obtain ⟨block, among, path⟩ := alternativeReaches alternative node member
                exact .down (.tail _ (.tail _ (List.mem_map.2 ⟨_, among, rfl⟩))) path⟩⟩⟩
  | .function _ parameters body =>
      List.forall_mem_cons.2 ⟨.here, List.forall_mem_append.2
        ⟨fun node member => by
            obtain ⟨name, among, rfl⟩ := List.mem_map.1 member
            exact .down (.tail _ (List.mem_map.2 ⟨_, among, rfl⟩)) .here,
          fun node member => .down (.head _) (body.reaches node member)⟩⟩
  | .call _ callee arguments =>
      List.forall_mem_append.2 ⟨fun node member => .down (.head _) (callee.reaches node member),
        List.forall_mem_cons.2 ⟨.here, fun node member => by
          obtain ⟨argument, among, path⟩ := argumentsReaches arguments node member
          exact .down (.tail _ (List.mem_map.2 ⟨_, among, rfl⟩)) path⟩⟩
termination_by structural tree => tree

theorem Statement.reaches : (tree : Statement) →
    ∀ node ∈ tree.nodes, (Node.statement tree).Reaches node
  | .binding _ _ value =>
      List.forall_mem_cons.2 ⟨.here, List.forall_mem_cons.2 ⟨.down (.head _) .here,
        fun node member => .down (.tail _ (.head _)) (value.reaches node member)⟩⟩
  | .result _ value | .expression _ value =>
      List.forall_mem_cons.2 ⟨.here, fun node member =>
        .down (.head _) (value.reaches node member)⟩
termination_by structural tree => tree

theorem Block.reaches : (tree : Block) → ∀ node ∈ tree.nodes, (Node.block tree).Reaches node
  | .mk _ statements =>
      List.forall_mem_cons.2 ⟨.here, fun node member => by
        obtain ⟨statement, among, path⟩ := statementsReaches statements node member
        exact .down (List.mem_map.2 ⟨_, among, rfl⟩) path⟩
termination_by structural tree => tree

theorem alternativeReaches : (alternative : Option Block) →
    ∀ node ∈ alternativeNodes alternative,
      ∃ block ∈ alternative.toList, (Node.block block).Reaches node
  | none => List.forall_mem_nil _
  | some block => fun node member => ⟨block, .head _, block.reaches node member⟩
termination_by structural alternative => alternative

theorem argumentsReaches : (arguments : List Expr) → ∀ node ∈ argumentsNodes arguments,
    ∃ argument ∈ arguments, (Node.expression argument).Reaches node
  | [] => List.forall_mem_nil _
  | argument :: arguments =>
      List.forall_mem_append.2 ⟨fun node member =>
          ⟨argument, .head _, argument.reaches node member⟩,
        fun node member => by
          obtain ⟨other, among, path⟩ := argumentsReaches arguments node member
          exact ⟨other, .tail _ among, path⟩⟩
termination_by structural arguments => arguments

theorem statementsReaches : (statements : List Statement) → ∀ node ∈ statementsNodes statements,
    ∃ statement ∈ statements, (Node.statement statement).Reaches node
  | [] => List.forall_mem_nil _
  | statement :: statements =>
      List.forall_mem_append.2 ⟨fun node member =>
          ⟨statement, .head _, statement.reaches node member⟩,
        fun node member => by
          obtain ⟨other, among, path⟩ := statementsReaches statements node member
          exact ⟨other, .tail _ among, path⟩⟩
termination_by structural statements => statements

end

/-- From the root of a tree down to a node. -/
def Program.Path (program : Program) (edges : List Edge) (node : Node) : Prop :=
  ∃ statement ∈ program.statements, ∃ below,
    edges = .statement :: below ∧ (Node.statement statement).Path below node

/-- Every node of a tree stands at the end of a path. -/
theorem Program.exists_path {program : Program} {node : Node} (member : node ∈ program.nodes) :
    ∃ edges, program.Path edges node := by
  obtain ⟨statement, among, below, path⟩ := statementsReaches program.statements node member
  exact ⟨.statement :: below, statement, among, below, rfl, path⟩

end Monkey
