import Monkey.Diagnostic.Basic
import Monkey.Source.Line
import Monkey.Text.Blank

namespace Monkey

/-! Diagnostics shown against their source.

A report names the fault and the file, then shows the line behind a gutter with its
number, and under it a caret below the byte at fault:

    Error: message (tip)
    -> file.mk
      |
    2 | let b 5;
      | ------^

Spaces and tabs that start the line are left out, and so is the white space that
ends it.  If the position is not in the source, the report stops after the file.
-/

/-- The spaces and tabs that a report leaves out at the start of a line. -/
def isIndent (c : Char) : Bool :=
  c = ' ' ∨ c = '\t'

namespace Line

/-- The width of the indentation, in bytes. -/
def indent (line : Line) : Nat :=
  byteLength (line.text.toList.takeWhile isIndent)

/-- The line without its indentation and without the white space at its end. -/
def shown (line : Line) : String :=
  String.ofList (Text.trimEnd (line.text.toList.dropWhile isIndent))

/-- An empty gutter, as wide as that of the line. -/
def gutter (line : Line) : String :=
  String.ofList (List.replicate ((toString line.number).length + 1) ' ') ++ "|"

/-- The caret behind one dash for every byte before it.  A place within the
indentation counts as the first byte after it. -/
def caret (line : Line) : String :=
  String.ofList (List.replicate (line.column - line.indent) '-') ++ "^"

/-- The three rows that show the line. -/
def rows (line : Line) : List String :=
  [line.gutter, toString line.number ++ " | " ++ line.shown, line.gutter ++ " " ++ line.caret]

end Line

namespace Diagnostic

def rows (diagnostic : Diagnostic) (source : String) : List String :=
  let heading := [diagnostic.headline, "-> " ++ diagnostic.position.file]
  match lineAt source diagnostic.position.offset with
  | none => heading
  | some line => heading ++ line.rows

/-- The rows of a report, each ended by a line feed. -/
def report (diagnostic : Diagnostic) (source : String) : String :=
  String.join ((diagnostic.rows source).map (· ++ "\n"))

end Diagnostic

end Monkey
