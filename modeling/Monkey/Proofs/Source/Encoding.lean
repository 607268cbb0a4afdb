import Mathlib.Tactic.SplitIfs
import Monkey.Source.Bytes

namespace Monkey

/-! The bytes of a text.

Characters of ASCII have one byte, which is found in no other character.
-/

/-- The UTF-8 encoding of a text. -/
def utf8 (characters : List Char) : List UInt8 :=
  characters.flatMap String.utf8EncodeChar

@[simp] theorem utf8_nil : utf8 [] = [] := rfl

@[simp] theorem utf8_cons (c : Char) (rest : List Char) :
    utf8 (c :: rest) = String.utf8EncodeChar c ++ utf8 rest := rfl

@[simp] theorem utf8_append (left right : List Char) :
    utf8 (left ++ right) = utf8 left ++ utf8 right := by
  simp [utf8]

/-- These are the bytes that a string is made of. -/
theorem toByteArray_utf8 (text : String) : (utf8 text.toList).toByteArray = text.toByteArray :=
  String.utf8Encode_toList

@[simp] theorem length_utf8 (characters : List Char) :
    (utf8 characters).length = byteLength characters := by
  induction characters with
  | nil => rfl
  | cons c rest ih => simp [ih]

/-- A text is encoded by its own characters only. -/
theorem utf8_injective {characters others : List Char} (same : utf8 characters = utf8 others) :
    characters = others := by
  have bytes := congrArg List.toByteArray same
  rw [← String.toList_ofList (l := characters), ← String.toList_ofList (l := others),
    toByteArray_utf8, toByteArray_utf8] at bytes
  exact String.ofList_injective (String.toByteArray_inj.1 bytes)

theorem utf8Size_eq_one_iff {c : Char} : c.utf8Size = 1 ↔ c.toNat < 128 :=
  Char.utf8Size_eq_one_iff.trans (UInt32.le_iff_toNat_le.trans Nat.lt_succ_iff.symm)

/-- Bytes count as characters only in ASCII. -/
theorem byteLength_eq_length_iff {characters : List Char} :
    byteLength characters = characters.length ↔ ∀ c ∈ characters, c.toNat < 128 := by
  suffices both : characters.length ≤ byteLength characters ∧
      (byteLength characters = characters.length ↔ ∀ c ∈ characters, c.toNat < 128) from both.2
  induction characters with
  | nil => simp
  | cons c rest ih =>
      obtain ⟨least, same⟩ := ih
      have positive := c.utf8Size_pos
      rw [byteLength_cons, List.length_cons, List.forall_mem_cons, ← same, ← utf8Size_eq_one_iff]
      omega

theorem byteLength_of_ascii {characters : List Char} (ascii : ∀ c ∈ characters, c.toNat < 128) :
    byteLength characters = characters.length :=
  byteLength_eq_length_iff.2 ascii

theorem byteLength_replicate {c : Char} (ascii : c.toNat < 128) (count : Nat) :
    byteLength (List.replicate count c) = count := by
  rw [byteLength_of_ascii, List.length_replicate]
  intro other member
  rwa [List.eq_of_mem_replicate member]

theorem toUInt8_eq_ofNat {c : Char} (ascii : c.toNat < 128) (value : Nat) :
    c.toUInt8 = UInt8.ofNat value ↔ c.toNat = value % 256 := by
  have low : c.toUInt8.toNat = c.toNat % 256 := UInt32.toNat_toUInt8 c.val
  rw [← UInt8.toNat_inj, UInt8.toNat_ofNat', low, Nat.mod_eq_of_lt (by omega)]

/-- All bytes of a character that is not of ASCII are beyond ASCII. -/
theorem toUInt8_mem_utf8EncodeChar {c other : Char} (ascii : c.toNat < 128) :
    c.toUInt8 ∈ String.utf8EncodeChar other ↔ c = other := by
  rw [← Char.toNat_inj]
  unfold String.utf8EncodeChar
  change _ ↔ c.toNat = other.val.toNat
  generalize other.val.toNat = value
  dsimp only
  split_ifs with one two three
  all_goals
    simp only [List.mem_cons, List.not_mem_nil, or_false, toUInt8_eq_ofNat ascii]
    omega

theorem toUInt8_mem_utf8 {c : Char} {characters : List Char} (ascii : c.toNat < 128) :
    c.toUInt8 ∈ utf8 characters ↔ c ∈ characters := by
  simp [utf8, toUInt8_mem_utf8EncodeChar ascii]

theorem utf8EncodeChar_of_ascii {c : Char} (ascii : c.toNat < 128) :
    String.utf8EncodeChar c = [c.toUInt8] := by
  have small : c.val.toNat ≤ 127 := Nat.le_of_lt_succ ascii
  unfold String.utf8EncodeChar
  rw [if_pos small]
  rfl

/-- What is not found before is first found here. -/
theorem idxOf?_append_cons {α : Type} [BEq α] [LawfulBEq α] {value : α} {before : List α}
    (free : value ∉ before) (after : List α) :
    (before ++ value :: after).idxOf? value = some before.length := by
  induction before with
  | nil => simp [List.idxOf?_cons]
  | cons other before ih =>
      obtain ⟨different, free⟩ := not_or.1 (mt List.mem_cons.2 free)
      simp [List.idxOf?_cons, Ne.symm different, ih free]

/-- A character of ASCII is first found behind the bytes of what stands before it. -/
theorem idxOf?_utf8 {c : Char} {before : List Char} (ascii : c.toNat < 128) (free : c ∉ before)
    (after : List Char) :
    (utf8 (before ++ c :: after)).idxOf? c.toUInt8 = some (byteLength before) := by
  have absent : c.toUInt8 ∉ utf8 before := mt (toUInt8_mem_utf8 ascii).1 free
  rw [utf8_append, utf8_cons, utf8EncodeChar_of_ascii ascii, List.singleton_append,
    idxOf?_append_cons absent, length_utf8]

end Monkey
