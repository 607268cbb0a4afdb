import Monkey.Proofs.Parser.Progress

namespace Monkey

/-! What the tokens that a routine consumed say about the value it gives.

The promise made here is worth something only as long as nothing but integers was found
wrong.  It speaks of the tokens consumed and of the token at which the routine stopped.
-/

/-- Nothing is wrong but that some integers are too large. -/
def Clean (found : List Diagnostic) : Prop :=
  ∀ diagnostic ∈ found, diagnostic.IsOutOfRange

namespace Clean

theorem nil : Clean [] := by
  simp [Clean]

theorem append_iff {first second : List Diagnostic} :
    Clean (first ++ second) ↔ Clean first ∧ Clean second :=
  List.forall_mem_append

end Clean

namespace Contract

variable {α : Type}

def reads (promise : α → List Token → Token → Prop) (parser : Parser) : Contract α :=
  .onSuccess fun value count found =>
    Clean found → promise value (parser.taken count) (parser.token count)

end Contract

namespace Outcome.Meets

variable {α β : Type} {parser : Parser}

/-- What is read after a first part is promised together with whatever that part was. -/
theorem bind_reads {routine : Routine α} {next : α → Routine β}
    {first : α → List Token → Token → Prop} {whole : β → List Token → Token → Prop}
    (standard : parser.Standard) (met : (routine parser).Meets parser (.reads first parser))
    (continues : ∀ (value : α) (parser : Parser), parser.Standard →
      (next value parser).Meets parser (.reads (fun result after last =>
        ∀ before, first value before parser.current → whole result (before ++ after) last)
        parser)) :
    ((routine >>= next) parser).Meets parser (.reads whole parser) := by
  apply met.bind (fun _ _ _ _ => trivial) (fun _ => trivial)
  intro value count found kept
  refine (continues value _ standard.beyond).mono ?_ (fun _ _ _ _ => trivial) (fun _ => trivial)
  intro result more others promised clean
  obtain ⟨foundClean, othersClean⟩ := Clean.append_iff.1 clean
  have joined := promised othersClean _ (by simpa using kept foundClean)
  rwa [← Parser.taken_add, Parser.token_beyond] at joined

theorem mono_reads {outcome : Outcome α} {weak strong : α → List Token → Token → Prop}
    (met : outcome.Meets parser (.reads strong parser))
    (kept : ∀ value tokens last, strong value tokens last → weak value tokens last) :
    outcome.Meets parser (.reads weak parser) :=
  met.mono (fun _ _ _ promise clean => kept _ _ _ (promise clean)) (fun _ _ _ _ => trivial)
    (fun _ => trivial)

theorem with_head {outcome : Outcome α} {promise : α → List Token → Token → Prop}
    (met : outcome.Meets parser (.reads promise parser)) :
    outcome.Meets parser (.reads (fun value tokens last => promise value tokens last ∧
      ∀ first ∈ tokens.head?, first = parser.current) parser) := by
  refine met.mono ?_ (fun _ _ _ _ => trivial) (fun _ => trivial)
  intro value count found kept clean
  exact ⟨kept clean, fun first member =>
    Parser.current_of_leading (List.take_prefix _ _) member⟩

theorem pure_reads {promise : α → List Token → Token → Prop} {value : α}
    (kept : promise value [] parser.current) :
    ((Pure.pure value : Routine α) parser).Meets parser (.reads promise parser) :=
  .pure fun _ => kept

theorem bind_pure_reads {routine : Routine α} {value : α → β}
    {first : α → List Token → Token → Prop} {promise : β → List Token → Token → Prop}
    (met : (routine parser).Meets parser (.reads first parser))
    (joins : ∀ result tokens last, first result tokens last → promise (value result) tokens last) :
    ((routine >>= fun result => Pure.pure (value result)) parser).Meets parser
      (.reads promise parser) := by
  apply met.bind (fun _ _ _ _ => trivial) (fun _ => trivial)
  intro result count found kept
  refine .pure fun clean => joins result _ _ (kept ?_)
  simpa using clean

theorem fail_reads {promise : α → List Token → Token → Prop} {cause : Cause} :
    (Routine.fail cause parser : Outcome α).Meets parser (.reads promise parser) :=
  .fail trivial

theorem advance_reads (standard : parser.Standard)
    (present : parser.current.kind ≠ .endOfInput) :
    (Routine.advance parser).Meets parser
      (.reads (fun token tokens _ => tokens = [token] ∧ token = parser.current) parser) :=
  .advance fun _ => ⟨standard.taken_one present, rfl⟩

theorem expect_reads {kind : Kind} (standard : parser.Standard) (other : kind ≠ .endOfInput) :
    (Routine.expect kind parser).Meets parser
      (.reads (fun token tokens _ => tokens = [token] ∧ token.kind = kind) parser) := by
  refine .expect ?_ fun _ => trivial
  intro present _
  exact ⟨standard.taken_one (by rwa [present]), present⟩

def skipReads (kind : Kind) (current : Token) : Bool → List Token → Token → Prop
  | true, tokens, _ => ∃ token, tokens = [token] ∧ token.kind = kind
  | false, tokens, last => tokens = [] ∧ last = current ∧ current.kind ≠ kind

theorem skip_reads {kind : Kind} (standard : parser.Standard) (other : kind ≠ .endOfInput) :
    (Routine.skip kind parser).Meets parser (.reads (skipReads kind parser.current) parser) := by
  refine .skip ?_ ?_
  · intro present _
    exact ⟨_, standard.taken_one (by rwa [present]), present⟩
  · intro absent _
    exact ⟨rfl, rfl, absent⟩

theorem nested_reads {routine : Routine α} {promise : α → List Token → Token → Prop}
    (standard : parser.Standard)
    (reads : ∀ parser : Parser, parser.Standard →
      (routine parser).Meets parser (.reads promise parser)) :
    (Routine.nested routine parser).Meets parser (.reads promise parser) :=
  .nested (fun _ => trivial) fun _ => reads _ standard.inside

end Outcome.Meets

namespace Routine

open Outcome

variable {α : Type} {parser : Parser}

theorem identifier_reads (standard : parser.Standard) :
    (identifier parser).Meets parser
      (.reads (fun name tokens _ => ∃ token : Token, tokens = [token] ∧
        token.kind = .identifier ∧ name = ⟨token, token.text⟩) parser) := by
  apply Meets.bind_pure_reads (.expect_reads standard (by decide))
  intro token tokens _ read
  obtain ⟨rfl, isName⟩ := read
  exact ⟨token, rfl, isName, rfl⟩

/-- What a round of reading items consumes: an item, and a comma if another follows. -/
def itemRead (promise : α → List Token → Prop) (items : Array α) :
    Round (Array α) (List α) → List Token → Prop
  | .again next, tokens => ∃ value before comma, next = items.push value ∧
      tokens = before ++ [comma] ∧ promise value before ∧ comma.kind = .comma
  | .done result, tokens => ∃ value, result = (items.push value).toList ∧ promise value tokens

theorem separatedRound_reads {item : Routine α} {items : Array α}
    {promise : α → List Token → Prop} (standard : parser.Standard)
    (reads : ∀ parser : Parser, parser.Standard →
      (item parser).Meets parser (.reads (fun value tokens _ => promise value tokens) parser)) :
    (separatedRound item items parser).Meets parser
      (.reads (fun decision tokens _ => itemRead promise items decision tokens) parser) := by
  apply Meets.bind_reads standard (reads parser standard)
  intro value parser standard
  apply Meets.bind_reads standard (.skip_reads standard (by decide))
  intro skipped parser standard
  cases skipped with
  | true =>
      apply Meets.pure_reads
      intro _ both before read
      obtain ⟨comma, rfl, separates⟩ := both
      exact ⟨value, before, comma, rfl, by simp, read, separates⟩
  | false =>
      apply Meets.pure_reads
      intro _ both before read
      obtain ⟨rfl, _⟩ := both
      exact ⟨value, rfl, by simpa using read⟩

theorem separated_reads {item : Routine α} {promise : α → List Token → Prop}
    {listed : List α → List Token → Prop} (standard : parser.Standard)
    (reads : ∀ parser : Parser, parser.Standard →
      (item parser).Meets parser (.reads (fun value tokens _ => promise value tokens) parser))
    (one : ∀ value tokens, promise value tokens → listed [value] tokens)
    (more : ∀ value tokens comma values others, promise value tokens → comma.kind = .comma →
      listed values others → listed (value :: values) (tokens ++ comma :: others)) :
    (separated item parser).Meets parser
      (.reads (fun values tokens _ => listed values tokens) parser) := by
  rw [separated_eq]
  -- Whatever list comes after what was read so far, the two make a list.
  refine .iterate (fun items count found => Clean found → ∀ values tokens,
    listed values tokens → listed (items.toList ++ values) (parser.taken count ++ tokens)) ?_
    (fun _ _ _ kept => by simpa using kept)
  intro items count found invariant
  refine (separatedRound_reads standard.beyond reads).mono ?_ (fun _ _ _ _ => trivial)
    (fun _ => trivial)
  intro decision further others kept
  cases decision with
  | again next =>
      refine ⟨.inr trivial, fun _ => ?_⟩
      intro clean values tokens rest
      obtain ⟨foundClean, othersClean⟩ := Clean.append_iff.1 clean
      obtain ⟨value, before, comma, rfl, consumed, read, separates⟩ := kept othersClean
      have joined := invariant foundClean _ _ (more _ _ _ _ _ read separates rest)
      rw [Parser.taken_add found, consumed]
      simpa using joined
  | done result =>
      intro clean
      obtain ⟨foundClean, othersClean⟩ := Clean.append_iff.1 clean
      obtain ⟨value, rfl, read⟩ := kept othersClean
      have joined := invariant foundClean _ _ (one _ _ read)
      rw [Parser.taken_add found]
      simpa using joined

theorem enclosed_reads {item : Routine α} {promise : α → List Token → Prop}
    (listed allowed : List α → List Token → Prop) (standard : parser.Standard)
    (reads : ∀ parser : Parser, parser.Standard →
      (item parser).Meets parser (.reads (fun value tokens _ => promise value tokens) parser))
    (one : ∀ value tokens, promise value tokens → listed [value] tokens)
    (more : ∀ value tokens comma values others, promise value tokens → comma.kind = .comma →
      listed values others → listed (value :: values) (tokens ++ comma :: others))
    (none : allowed [] []) (some : ∀ values tokens, listed values tokens → allowed values tokens) :
    (enclosed item parser).Meets parser
      (.reads (fun values tokens _ => ∃ inside closing, tokens = inside ++ [closing] ∧
        closing.kind = .closeParen ∧ allowed values inside) parser) := by
  apply Meets.bind_reads standard (.skip_reads standard (by decide))
  intro skipped parser standard
  cases skipped with
  | true =>
      apply Meets.pure_reads
      intro _ read
      obtain ⟨closing, rfl, closes⟩ := read
      exact ⟨[], closing, rfl, closes, none⟩
  | false =>
      apply Meets.bind_reads standard (separated_reads standard reads one more)
      intro items parser standard
      apply Meets.bind_pure_reads (.expect_reads standard (by decide))
      rintro closing _ _ ⟨rfl, closes⟩ inside list _ ⟨rfl, _⟩
      exact ⟨inside, closing, rfl, closes, some _ _ list⟩

end Routine

end Monkey
