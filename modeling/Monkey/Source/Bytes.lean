namespace Monkey

/-! Lengths of text in bytes.

Places in a source are counted in UTF-8 bytes, while text is taken apart as a
list of characters.  `byteLength` measures such a list, and `dropBytes` moves to
a byte offset in it, which exists only where a character starts or the text
ends.
-/

def byteLength : List Char → Nat
  | [] => 0
  | c :: rest => c.utf8Size + byteLength rest

@[simp] theorem byteLength_nil : byteLength [] = 0 := rfl

@[simp] theorem byteLength_cons (c : Char) (rest : List Char) :
    byteLength (c :: rest) = c.utf8Size + byteLength rest := rfl

@[simp] theorem byteLength_append (left right : List Char) :
    byteLength (left ++ right) = byteLength left + byteLength right := by
  induction left with
  | nil => simp
  | cons c left ih => simp [ih, Nat.add_assoc]

theorem byteLength_eq_utf8ByteSize (characters : List Char) :
    byteLength characters = (String.ofList characters).utf8ByteSize := by
  induction characters with
  | nil => simp
  | cons c rest ih =>
      rw [byteLength_cons, ih, String.ofList_cons, String.utf8ByteSize_append,
        String.utf8ByteSize_singleton]

@[simp] theorem byteLength_toList (text : String) :
    byteLength text.toList = text.utf8ByteSize := by
  rw [byteLength_eq_utf8ByteSize, String.ofList_toList]

/-- What follows the first `count` bytes; `none` inside a character and past the
end. -/
def dropBytes : Nat → List Char → Option (List Char)
  | 0, characters => some characters
  | _ + 1, [] => none
  | count + 1, c :: rest =>
      if c.utf8Size ≤ count + 1 then dropBytes (count + 1 - c.utf8Size) rest else none

@[simp] theorem dropBytes_zero (characters : List Char) :
    dropBytes 0 characters = some characters := by
  cases characters <;> rfl

/-- The offsets that exist are exactly the ends of leading pieces of the text. -/
theorem dropBytes_eq_some_iff {count : Nat} {characters rest : List Char} :
    dropBytes count characters = some rest ↔
      ∃ before, characters = before ++ rest ∧ byteLength before = count := by
  induction characters generalizing count with
  | nil =>
      cases count with
      | zero =>
          simp only [dropBytes, Option.some.injEq]
          constructor
          · intro same
            subst same
            exact ⟨[], rfl, rfl⟩
          · intro found
            obtain ⟨before, split, _⟩ := found
            exact (List.append_eq_nil_iff.1 split.symm).2.symm
      | succ count =>
          simp only [dropBytes, reduceCtorEq, false_iff]
          intro found
          obtain ⟨before, split, length⟩ := found
          rw [(List.append_eq_nil_iff.1 split.symm).1] at length
          simp at length
  | cons c characters ih =>
      have positive := c.utf8Size_pos
      cases count with
      | zero =>
          simp only [dropBytes, Option.some.injEq]
          constructor
          · intro same
            subst same
            exact ⟨[], rfl, rfl⟩
          · intro found
            obtain ⟨before, split, length⟩ := found
            cases before with
            | nil => exact split
            | cons d before =>
                have := d.utf8Size_pos
                simp only [byteLength_cons] at length
                omega
      | succ count =>
          simp only [dropBytes]
          constructor
          · intro found
            split at found
            · obtain ⟨before, rfl, length⟩ := ih.1 found
              refine ⟨c :: before, rfl, ?_⟩
              simp only [byteLength_cons]
              omega
            · simp at found
          · intro found
            obtain ⟨before, split, length⟩ := found
            cases before with
            | nil => simp at length
            | cons d before =>
                simp only [List.cons_append, List.cons.injEq] at split
                obtain ⟨rfl, rfl⟩ := split
                simp only [byteLength_cons] at length
                rw [if_pos (by omega)]
                exact ih.2 ⟨before, rfl, by omega⟩

end Monkey
