import Treewalk.Proofs.Grammar.Outcome
import Treewalk.Proofs.Grammar.Rules
import Treewalk.Proofs.Grammar.Soundness

/-!
# No more notes than tokens

Every note of the parser is paid for with a token that is read or dropped, and no token pays twice.
A fault in front of a token is paid for with this token, since recovery drops it, and a value that
cannot be assigned to what is in front of it with the equals sign. A fault at the end has no token
of its own: recovery drops nothing there, and the same end may have many faults, one for each block
that is still open. Such a fault is paid for with the first token of the declaration that it is in,
which has been read and which no other note is paid for with.

So what a step has to leave besides the notes it pays for is one token to spare if there is any
(`Step.Pays`). A block alone need not, as its declarations may use up all that is behind the brace.
The brace is what is left to pay for the block.
-/

namespace Treewalk

/-! ## Steps -/

namespace Step

variable {α β : Type} {n k j spare : Nat} {tokens : List Token}

/-- The notes are no more than the tokens that are used up, besides those that have to be read for a
    value. So many tokens are to spare: the notes could not be more even if the step stopped at the
    end. -/
def Pays (s : Step α n k) (spare : Nat) (tokens : List Token) : Prop :=
  s.Ensures
    (fun _ rest notes => notes.length + rest.length + k ≤ tokens.length ∧
      notes.length ≤ tokens.length - spare)
    (fun _ rest notes => notes.length + rest.length ≤ tokens.length ∧
      notes.length ≤ tokens.length - spare)

namespace Pays

/-- Nothing is noted, so nothing has to be paid for. -/
theorem of_notes_eq_nil {s : Step α tokens.length k} (h : s.notes = []) : s.Pays spare tokens := by
  cases s with
  | done value rest notes fits =>
    obtain rfl : notes = [] := h
    exact ⟨by simpa using fits, Nat.zero_le _⟩
  | stuck fault rest notes fits =>
    obtain rfl : notes = [] := h
    exact ⟨by simpa using fits, Nat.zero_le _⟩

/-- Expecting a token makes no note: the fault is noted by whoever recovers from it. -/
theorem expect (kind : Kind) (fault : SyntaxFault) (tokens : List Token) :
    (Step.expect kind fault tokens).Pays spare tokens := by
  apply of_notes_eq_nil
  cases tokens with
  | nil => rfl
  | cons t rest =>
    rw [Step.expect]
    split <;> rfl

/-- What the first step has to spare is left if the second one starts at the end, and what the
    second one has to spare is left if it does not. -/
theorem bind {s : Step α n k} {next : α → (rest : List Token) → rest.length + k ≤ n →
    Step β rest.length j}
    (h : s.Pays spare tokens) (hnext : ∀ a rest fits, (next a rest fits).Pays spare rest) :
    (s.bind next).Pays spare tokens := by
  refine (ensures_bind s next).2 (Ensures.imp h ?_ fun _ _ _ hfault => hfault)
  rintro a rest notes ⟨hrest, hspare⟩ fits
  refine Ensures.imp (hnext a rest fits) ?_ ?_
  · rintro b rest' notes' ⟨hrest', hspare'⟩
    rw [List.length_append]
    omega
  · rintro fault rest' notes' ⟨hrest', hspare'⟩
    rw [List.length_append]
    omega

/-- Mapping the value changes neither the notes nor the tokens. -/
theorem map (g : α → β) {s : Step α n k} (h : s.Pays spare tokens) : (s.map g).Pays spare tokens :=
  (ensures_map g s).2 h

/-- Forgetting that tokens were read asks for less of a value. -/
theorem maybe {s : Step α n k} (h : s.Pays spare tokens) : s.maybe.Pays spare tokens := by
  refine (ensures_maybe s).2 (Ensures.imp h ?_ fun _ _ _ hfault => hfault)
  rintro a rest notes ⟨hrest, hspare⟩
  omega

/-- The same if one token is still known to be read. -/
theorem once {s : Step α n (k + 1)} (h : s.Pays spare tokens) : s.once.Pays spare tokens := by
  refine (ensures_once s).2 (Ensures.imp h ?_ fun _ _ _ hfault => hfault)
  rintro a rest notes ⟨hrest, hspare⟩
  omega

/-- Whatever a step spends, the token in front of it is still to spare. -/
theorem behind {s : Step α tokens.length k} (h : s.Pays spare tokens) (t : Token) :
    (s.behind t).Pays 1 (t :: tokens) := by
  refine (ensures_behind s t).2 (Ensures.imp h ?_ ?_)
  · rintro a rest notes ⟨hrest, hspare⟩
    rw [List.length_cons]
    omega
  · rintro fault rest notes ⟨hrest, hspare⟩
    rw [List.length_cons]
    omega

/-- The equals sign pays for a value that cannot be assigned. There is another token to spare, since
    the value has been read behind it. -/
theorem target {s : Step α tokens.length 1} (h : s.Pays 1 tokens) (equals : Token)
    (d : Diagnostic) : ((s.behind equals).note d).maybe.Pays 1 (equals :: tokens) := by
  rw [Pays, ensures_maybe, ensures_note, ensures_behind]
  refine Ensures.imp h ?_ ?_
  · rintro a rest notes ⟨hrest, hspare⟩
    simp only [List.length_append, List.length_cons, List.length_nil]
    omega
  · rintro fault rest notes ⟨hrest, hspare⟩
    rw [List.length_cons]
    omega

end Pays

end Step

/-! ## Productions -/

namespace Grammar

open Step

/-- A declaration that the grammar is stuck in is paid for: with the token that it is stuck in front
    of, or at the end with the one that was to spare. -/
theorem recovered_pays (stop t : Token) {tokens : List Token} {s : Step Stmt (tokens.length + 1) 1}
    (h : s.Pays 1 (t :: tokens)) :
    (recover stop (Nat.succ_pos _) s).notes.length + (recover stop (Nat.succ_pos _) s).rest.length ≤
      (t :: tokens).length := by
  cases s with
  | done statement rest notes fits =>
    obtain ⟨hrest, -⟩ := h
    show notes.length + rest.length ≤ (t :: tokens).length
    omega
  -- The note on the fault is paid for with the token that recovery drops, or with the spare one if
  -- there is none to drop.
  | stuck fault rest notes fits =>
    obtain ⟨hrest, hspare⟩ := h
    have hdropped := length_resume_le rest
    show (notes ++ [blame stop rest fault]).length + (resume rest).length ≤ (t :: tokens).length
    rw [List.length_append, List.length_singleton]
    rw [List.length_cons] at *
    omega

/-- Every production pays for its notes. -/
theorem rules_pays (stop : Token) :
    Rules stop (fun s tokens => s.Pays 1 tokens) (fun s tokens => s.Pays 0 tokens)
      (fun tokens rest notes => notes.length + rest.length ≤ tokens.length) where
  pure _ _ := .of_notes_eq_nil rfl
  fail _ _ := .of_notes_eq_nil rfl
  expect := .expect
  bind := .bind
  map g h := h.map g
  maybe := .maybe
  once := .once
  target _ h := h.target _ _
  -- A block need have nothing to spare. Its opening brace, read by `behind`, gives the spare token
  -- back.
  inside h := Ensures.imp h (fun _ _ _ hvalue => ⟨hvalue.1, by omega⟩) fun _ _ _ hfault =>
    ⟨hfault.1, by omega⟩
  bindInside := .bind
  mapInside g h := h.map g
  behind := .behind
  recover h := recovered_pays _ _ h
  within g hfits h hs := by
    rw [Pays, ensures_within, ensures_precede, ensures_map]
    refine Ensures.imp hs ?_ ?_
    · rintro a rest' notes' ⟨hrest', hspare'⟩
      rw [List.length_append]
      omega
    · rintro fault rest' notes' ⟨hrest', hspare'⟩
      rw [List.length_append]
      omega
  nothing := Nat.le_refl 0
  trans h h' := by
    rw [List.length_append]
    omega

/-! ## Open blocks -/

/-- A block that comes to the end of the tokens without its closing brace. -/
theorem declared_of_block {stop brace : Token} (hbrace : brace.kind = .lBrace) {rest : List Token}
    {fault : SyntaxFault} {notes : List Diagnostic}
    (h : block stop rest = .stuck fault [] notes (Nat.zero_le _)) :
    declared stop brace rest = .stuck fault [] notes (Nat.zero_le _) := by
  rw [declared, hbrace]
  show statement stop (brace :: rest) = _
  rw [statement, hbrace]
  show (((block stop rest).map Stmt.block).behind brace).once = _
  rw [h]
  rfl

/-- A block with nothing but opening braces in it has a note for each of them. -/
theorem block_replicate (stop : Token) {brace : Token} (hbrace : brace.kind = .lBrace) (n : Nat) :
    ∃ notes, block stop (List.replicate n brace) = .stuck .braceAfterBlock [] notes
      (Nat.zero_le _) ∧
      notes.length = n := by
  induction n with
  | zero =>
    refine ⟨[], ?_, rfl⟩
    show block stop [] = _
    rw [block]
    rfl
  | succ n ih =>
    obtain ⟨notes, hblock, hlength⟩ := ih
    refine ⟨notes ++ [blame stop [] .braceAfterBlock], ?_, by rw [List.length_append, hlength]; rfl⟩
    show block stop (brace :: List.replicate n brace) = _
    -- The block inside is recovered from, which leaves the end to the block around it.
    rw [block, if_neg (by rw [hbrace]; decide), declaration, declared_of_block hbrace hblock]
    show (((block stop []).map _).precede (notes ++ [blame stop [] .braceAfterBlock])).within _ = _
    rw [block]
    simp [Step.map, Step.fail, precede, within]

/-- Opening braces alone have a note each. -/
theorem length_declarations_replicate (stop : Token) {brace : Token} (hbrace : brace.kind = .lBrace)
    (n : Nat) : (declarations stop (List.replicate n brace)).2.length = n := by
  cases n with
  | zero =>
    rw [List.replicate_zero, declarations]
    rfl
  | succ n =>
    obtain ⟨notes, hblock, hlength⟩ := block_replicate stop hbrace n
    show (declarations stop (brace :: List.replicate n brace)).2.length = n + 1
    -- All braces are read as blocks one inside of the other, each of which is noted once, at the
    -- end.
    rw [declarations, declaration, declared_of_block hbrace hblock]
    show ((notes ++ [blame stop [] .braceAfterBlock]) ++ (declarations stop []).2).length = n + 1
    rw [declarations, List.append_nil, List.length_append, hlength]
    rfl

end Grammar

/-! ## Main result -/

/-- **There are no more diagnostics than tokens.** Whatever the tokens, and however the faults among
    them nest, the diagnostics are at most as many as the tokens in front of the end mark. No
    smaller bound holds: for any number of tokens there are some with as many diagnostics. -/
theorem Parsed.length_diagnostics_le :
    (∀ tokens, (ofTokens tokens).diagnostics.length ≤ (front tokens).length) ∧
      ∀ n, ∃ tokens, (front tokens).length = n ∧ (ofTokens tokens).diagnostics.length = n := by
  constructor
  · intro tokens
    exact (Grammar.rules_pays (stopOf tokens)).declarations (front tokens)
  · -- With nothing but opening braces there are as many notes as tokens.
    intro n
    let brace : Token := .plain .lBrace "\x7b" (.point 0 1)
    have hfront : front (List.replicate n brace) = List.replicate n brace := by
      simp [front, brace, Token.plain]
    refine ⟨List.replicate n brace, by rw [hfront, List.length_replicate], ?_⟩
    show (Grammar.declarations _ (front (List.replicate n brace))).2.length = n
    rw [hfront]
    exact Grammar.length_declarations_replicate _ rfl n

end Treewalk
