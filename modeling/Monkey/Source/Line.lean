import Monkey.Source.Bytes

namespace Monkey

/-! The line of a source that holds a byte offset.

A line runs through its line feed, and the last one may have none.  The end of
the source belongs to its last line: after a closing line feed that is an empty
line.
-/

structure Line where
  /-- Counted from one. -/
  number : Nat
  /-- With its line feed, if it has one. -/
  text : String
  /-- The bytes of the line before the offset that was looked up. -/
  column : Nat
deriving DecidableEq

namespace Line

/-- Looks an offset up in the lines from the given number on. -/
def find (number offset : Nat) (characters : List Char) : Line :=
  let text := characters.takeWhile (· ≠ '\n')
  match _ending : characters.dropWhile (· ≠ '\n') with
  | [] => ⟨number, String.ofList text, offset⟩
  | feed :: rest =>
      if offset ≤ byteLength text then ⟨number, String.ofList (text ++ [feed]), offset⟩
      else find (number + 1) (offset - byteLength text - 1) rest
termination_by characters.length
decreasing_by
  have shorter := (List.dropWhile_sublist (l := characters) (· ≠ '\n')).length_le
  rw [_ending, List.length_cons] at shorter
  omega

end Line

def lineAt (source : String) (offset : Nat) : Option Line :=
  if offset ≤ source.utf8ByteSize then some (Line.find 1 offset source.toList) else none

end Monkey
