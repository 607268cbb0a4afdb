import Monkey.Proofs.Token.Scanning

namespace Monkey

/-! Where tokens start. -/

theorem Position.clamp_mono {first second : Nat} (le : first ≤ second) :
    clamp first ≤ clamp second := by
  rw [clamp_natCast, clamp_natCast]
  omega

/-- The tokens of a text start inside the text. -/
theorem scan_start_mem (file : String) (offset : Nat) (characters : List Char) :
    ∀ token ∈ scan file offset characters,
      Position.clamp offset ≤ token.span.start.offset ∧
      token.span.start.offset ≤ Position.clamp (offset + byteLength characters : Nat) := by
  induction length : characters.length using Nat.strongRecOn generalizing offset characters with
  | ind left ih =>
      intro token member
      cases characters with
      | nil =>
          rw [scan_nil] at member
          cases member
      | cons first rest =>
          by_cases gap : isGap first = true
          · rw [scan_gap gap] at member
            obtain ⟨lower, upper⟩ := ih rest.length (by simp [← length]) _ rest rfl token member
            rw [byteLength_cons, ← Nat.add_assoc]
            exact ⟨Nat.le_trans (Position.clamp_mono (Nat.le_add_right ..)) lower, upper⟩
          · have solid : isGap first = false := by simpa using gap
            have whole := congrArg byteLength (Lexeme.read_append first rest)
            rw [byteLength_append] at whole
            rw [scan_solid solid] at member
            rcases List.mem_cons.1 member with rfl | later
            · exact ⟨Nat.le_refl _, Position.clamp_mono (Nat.le_add_right ..)⟩
            · obtain ⟨lower, upper⟩ :=
                ih _ (length ▸ Lexeme.read_rest_length first rest) _ _ rfl token later
              rw [← whole, ← Nat.add_assoc]
              exact ⟨Nat.le_trans (Position.clamp_mono (Nat.le_add_right ..)) lower, upper⟩

/-- No token starts before the one in front of it. -/
theorem scan_pairwise (file : String) (offset : Nat) (characters : List Char) :
    (scan file offset characters).Pairwise fun first second =>
      first.span.start.offset ≤ second.span.start.offset := by
  induction length : characters.length using Nat.strongRecOn generalizing offset characters with
  | ind left ih =>
      cases characters with
      | nil =>
          rw [scan_nil]
          exact .nil
      | cons first rest =>
          by_cases gap : isGap first = true
          · rw [scan_gap gap]
            exact ih rest.length (by simp [← length]) _ rest rfl
          · have solid : isGap first = false := by simpa using gap
            rw [scan_solid solid, List.pairwise_cons]
            refine ⟨?_, ih _ (length ▸ Lexeme.read_rest_length first rest) _ _ rfl⟩
            intro token later
            exact Nat.le_trans (Position.clamp_mono (Nat.le_add_right ..))
              (scan_start_mem _ _ _ token later).1

end Monkey
