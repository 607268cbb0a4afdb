import Monkey.Tree.Basic

namespace Monkey

/-! Trees that say the same.

Two trees are alike if they have the same shape and the same content, with tokens
compared by kind and text: where the trees stand in their sources does not count.
-/

def Identifier.alike (left right : Identifier) : Bool :=
  left.token.alike right.token && left.value = right.value

def identifiersAlike : List Identifier → List Identifier → Bool
  | [], [] => true
  | left :: lefts, right :: rights => left.alike right && identifiersAlike lefts rights
  | _, _ => false

mutual

def Expr.alike : Expr → Expr → Bool
  | .identifier name, .identifier name' => name.alike name'
  | .integer token value, .integer token' value' => token.alike token' && value = value'
  | .boolean token value, .boolean token' value' => token.alike token' && value = value'
  | .unary token operator operand, .unary token' operator' operand' =>
      token.alike token' && operator = operator' && operand.alike operand'
  | .binary token left operator right, .binary token' left' operator' right' =>
      token.alike token' && left.alike left' && operator = operator' && right.alike right'
  | .conditional token condition consequence alternative,
      .conditional token' condition' consequence' alternative' =>
      token.alike token' && condition.alike condition' && consequence.alike consequence' &&
        alternativesAlike alternative alternative'
  | .function token parameters body, .function token' parameters' body' =>
      token.alike token' && identifiersAlike parameters parameters' && body.alike body'
  | .call token callee arguments, .call token' callee' arguments' =>
      token.alike token' && callee.alike callee' && argumentsAlike arguments arguments'
  | _, _ => false
termination_by structural tree => tree

def Statement.alike : Statement → Statement → Bool
  | .binding token name value, .binding token' name' value' =>
      token.alike token' && name.alike name' && value.alike value'
  | .result token value, .result token' value' => token.alike token' && value.alike value'
  | .expression token value, .expression token' value' =>
      token.alike token' && value.alike value'
  | _, _ => false
termination_by structural tree => tree

def Block.alike : Block → Block → Bool
  | .mk token statements, .mk token' statements' =>
      token.alike token' && statementsAlike statements statements'
termination_by structural tree => tree

def alternativesAlike : Option Block → Option Block → Bool
  | none, none => true
  | some block, some block' => block.alike block'
  | _, _ => false
termination_by structural tree => tree

def argumentsAlike : List Expr → List Expr → Bool
  | [], [] => true
  | argument :: arguments, argument' :: arguments' =>
      argument.alike argument' && argumentsAlike arguments arguments'
  | _, _ => false
termination_by structural tree => tree

def statementsAlike : List Statement → List Statement → Bool
  | [], [] => true
  | statement :: statements, statement' :: statements' =>
      statement.alike statement' && statementsAlike statements statements'
  | _, _ => false
termination_by structural tree => tree

end

namespace Program

def alike (left right : Program) : Bool :=
  statementsAlike left.statements right.statements

end Program

end Monkey
