import Monkey.Text.Ranges
import Monkey.Text.Extending
import Monkey.Text.Unprintable

namespace Monkey.Text

/-! Text in double quotes, made visible.

Quotes and backslashes get a backslash.  A character that has no picture, or that
would melt into the one before it, is written as its code point, four of them in a
shorter way.
-/

/-- Whether a character can be shown as it is. -/
def isShown (c : Char) : Bool :=
  !(within extending c || within unprintable c)

/-- A code point in hexadecimal, without leading zeros. -/
def codePoint (c : Char) : List Char :=
  ['\\', 'u', '\x7b'] ++ Nat.toDigits 16 c.toNat ++ ['\x7d']

def escape (c : Char) : List Char :=
  if c = '"' then ['\\', '"']
  else if c = '\\' then ['\\', '\\']
  else if c = '\x00' then ['\\', '0']
  else if c = '\t' then ['\\', 't']
  else if c = '\n' then ['\\', 'n']
  else if c = '\r' then ['\\', 'r']
  else if isShown c then [c]
  else codePoint c

def quoted (text : String) : String :=
  "\"" ++ String.ofList (text.toList.flatMap escape) ++ "\""

end Monkey.Text
