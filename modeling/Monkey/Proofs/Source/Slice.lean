import Monkey.Source.Bytes

namespace Monkey

/-! Pieces of a source. -/

/-- The text between two byte offsets.  There is none if they are out of order, inside a
character or past the end. -/
def slice (source : String) (start stop : Nat) : Option String := do
  let ahead ← dropBytes start source.toList
  let behind ← dropBytes stop source.toList
  if start ≤ stop then some (String.ofList (ahead.take (ahead.length - behind.length))) else none

theorem dropBytes_append {start : Nat} {characters piece after : List Char}
    (ahead : dropBytes start characters = some (piece ++ after)) :
    dropBytes (start + byteLength piece) characters = some after := by
  obtain ⟨before, whole, length⟩ := dropBytes_eq_some_iff.1 ahead
  refine dropBytes_eq_some_iff.2 ⟨before ++ piece, ?_, ?_⟩
  · rw [whole, List.append_assoc]
  · rw [byteLength_append, length]

/-- The text ahead of an offset reaches to the end of the source. -/
theorem byteLength_of_dropBytes {start : Nat} {source : String} {after : List Char}
    (ahead : dropBytes start source.toList = some after) :
    start + byteLength after = source.utf8ByteSize := by
  obtain ⟨before, whole, length⟩ := dropBytes_eq_some_iff.1 ahead
  rw [← byteLength_toList, whole, byteLength_append, length]

theorem slice_of_dropBytes {start : Nat} {source : String} {piece after : List Char}
    (ahead : dropBytes start source.toList = some (piece ++ after)) :
    slice source start (start + byteLength piece) = some (String.ofList piece) := by
  simp [slice, ahead, dropBytes_append ahead]

/-- A piece is what the text ahead of its start begins with. -/
theorem isPrefix_of_slice {source piece : String} {start stop : Nat}
    (found : slice source start stop = some piece) :
    ∃ after, dropBytes start source.toList = some after ∧ piece.toList <+: after := by
  obtain ⟨after, ahead, found⟩ := Option.bind_eq_some_iff.1 found
  obtain ⟨behind, _, found⟩ := Option.bind_eq_some_iff.1 found
  refine ⟨after, ahead, ?_⟩
  split at found
  · rw [← Option.some.inj found, String.toList_ofList]
    exact List.take_prefix _ _
  · cases found

example : slice "aé b" 1 3 = some "é" ∧ slice "aé b" 1 2 = none := by decide +kernel

end Monkey
