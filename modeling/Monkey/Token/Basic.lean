import Monkey.Source.Span
import Monkey.Token.Kind

namespace Monkey

/-! Tokens: a kind, the text that was matched and where it stands. -/

structure Token where
  kind : Kind
  text : String
  span : Span
deriving DecidableEq

namespace Token

/-- The same kind and the same text, wherever the two tokens stand. -/
def alike (left right : Token) : Bool :=
  left.kind = right.kind ∧ left.text = right.text

theorem alike_iff {left right : Token} :
    left.alike right = true ↔ left.kind = right.kind ∧ left.text = right.text := by
  simp [alike]

def isOneOf (token : Token) (kinds : List Kind) : Bool :=
  kinds.contains token.kind

/-- The name of the kind, with the text where the kind does not determine it. -/
def label (token : Token) : String :=
  if token.isOneOf [.identifier, .integer, .illegal] then
    token.kind.name ++ " (" ++ token.text ++ ")"
  else token.kind.name

/-- The token that ends every source, of no length at its last byte. -/
def endOfInput (file : String) (offset : Nat) : Token :=
  ⟨.endOfInput, "", .between file offset offset⟩

end Token

/-- Tokens that are alike one by one. -/
def tokensAlike : List Token → List Token → Bool
  | [], [] => true
  | left :: lefts, right :: rights => left.alike right && tokensAlike lefts rights
  | _, _ => false

theorem tokensAlike_iff {left right : List Token} :
    tokensAlike left right = true ↔
      left.map (fun token => (token.kind, token.text)) =
        right.map (fun token => (token.kind, token.text)) := by
  induction left generalizing right with
  | nil => cases right <;> simp [tokensAlike]
  | cons head left ih =>
      cases right with
      | nil => simp [tokensAlike]
      | cons other right => simp [tokensAlike, Token.alike, ih]

end Monkey
