import Treewalk.Proofs.Evaluation.Simulation
import Treewalk.Proofs.Grammar.Alike
import Treewalk.Proofs.Grammar.Soundness
import Treewalk.Proofs.Token.Tiling

/-!
# Layout does not matter

Blanks, line breaks and comments only change where tokens are. Nobody sees that but the one who
reads the place of a diagnostic. Two sources with the same tokens, wherever these are, are both
rejected, with the same diagnostics in the same order, or are both accepted, with the same outline,
and then they do the same on every machine (`Program.ofSource_layout`).

Diagnostics are sorted by where they start, but the sources have their tokens in the same order, so
sorting makes no difference (`Lexed.start_le_iff`). Spans are kept in trees, and in functions on the
heap, but all that a run does with them is to pass them on (`Machine.runSource_agree`).
-/

namespace Treewalk

/-! ## What shows -/

/-- What a diagnostic says, without the place. -/
def Diagnostic.wording (d : Diagnostic) : Phase × Option String × String :=
  (d.phase, d.near, d.message)

/-- Endings that are the same but for places. -/
inductive Ending.Agree : Ending → Ending → Prop where
  | completed : Agree .completed .completed
  | rejected {ds ds' : List Diagnostic} (h : ds.map Diagnostic.wording =
      ds'.map Diagnostic.wording) :
      Agree (.rejected ds) (.rejected ds')
  | stopped (fault : RuntimeFault) (span span' : Span) :
      Agree (.stopped ⟨fault, span⟩) (.stopped ⟨fault, span'⟩)
  | unfinished : Agree .unfinished .unfinished

/-- Endings that agree are both without enough fuel, or neither is. -/
theorem Ending.Agree.unfinished_iff {ending ending' : Ending} (h : ending.Agree ending') :
    ending = .unfinished ↔ ending' = .unfinished := by
  cases h <;> simp

/-- Machines that show the same: the sink, the log, the input that is left, and the globals as
    `print` would write them. -/
structure Machine.Agree (m m' : Machine) : Prop where
  sink : m.sink = m'.sink
  log : m.log = m'.log
  input : m.input = m'.input
  global (name : String) : (m.global? name).map m.display = (m'.global? name).map m'.display

/-! ## Runs of programs of matching tokens -/

/-- Between two runs on the same machine of trees that differ in where their tokens are. -/
def Link.anywhere {m : Machine} (h : 0 < m.scopes.size) : Link where
  scopes := .same m.scopes.size
  functions := .same m.heap.functions
  trees := Matching.anywhere.trees
  shared_pos := h

namespace Machine

variable {m m' : Machine}

/-- A machine is alike to itself. -/
theorem alike_anywhere (h : 0 < m.scopes.size) : m.Alike (.anywhere h) m :=
  .refl rfl rfl fun f =>
    ⟨.refl f.name, List.forall₂_same.2 fun t _ => .refl t, Matching.stmts_refl f.body⟩

/-- Alike machines show the same. -/
theorem Alike.agree {l : Link} (h : m.Alike l m') : m.Agree m' := by
  refine ⟨h.sink, h.log, h.input, fun name => ?_⟩
  have hglobal := h.scopes.get? (l.scopes.rel_of_lt l.shared_pos) name
  have hdisplay : Option.Rel Eq ((m.global? name).map m.display)
      ((m'.global? name).map m'.display) :=
    hglobal.map fun hv => h.heap.display_eq hv
  exact hdisplay.eq

end Machine

/-- Outcomes that are alike make endings that agree. -/
theorem Outcome.Alike.agree {α β : Type} {l : Link} {r : α → β → Prop} {a : Outcome α}
    {b : Outcome β} (h : a.Alike l r b) : a.ending.Agree b.ending := by
  cases h with
  | done _ => exact .completed
  | failed fault _ => exact .stopped fault _ _
  | unfinished => exact .unfinished

/-- Programs of matching tokens do the same on a machine. -/
theorem Program.run_agree {p p' : Program}
    (hprograms : List.Forall₂ Matching.anywhere.trees.stmt p.statements p'.statements) {m : Machine}
    (h : 0 < m.scopes.size) (fuel : Nat) :
    ((p.run fuel).outcome m).1.ending.Agree ((p'.run fuel).outcome m).1.ending ∧
      ((p.run fuel).outcome m).2.Agree ((p'.run fuel).outcome m).2 := by
  have hrun : Run.Alike (.anywhere h) (fun _ _ => True) (p.run fuel) (p'.run fuel) :=
    (inOrder_alike (execute_alike fuel) hprograms).bind fun _ => .pure trivial
  obtain ⟨houtcome, hmachine, -⟩ := hrun m m (m.alike_anywhere h) (Shift.rel_same.2 rfl)
  exact ⟨houtcome.agree, hmachine.agree⟩

/-! ## Diagnostics of matching tokens -/

/-- A source without lexical faults is rejected for its syntax faults alone. -/
theorem Program.ofSource_of_lexed {source : String}
    (hclean : (Lexed.ofSource source).diagnostics = []) :
    Program.ofSource source =
      if (Parsed.ofTokens (Lexed.ofSource source).tokens).diagnostics.isEmpty then
        .ok (Parsed.ofTokens (Lexed.ofSource source).tokens).program
      else
        .error ((Parsed.ofTokens (Lexed.ofSource source).tokens).diagnostics.mergeSort fun d e =>
          decide (d.span.start ≤ e.span.start)) := by
  rw [ofSource, hclean]
  rfl

/-- There is an end mark among the tokens of every source. -/
theorem Lexed.exists_eof (source : String) : ∃ t ∈ (ofSource source).tokens, t.kind = .eof :=
  ⟨_, List.mem_append_right _ (List.mem_singleton_self _), rfl⟩

/-- The tokens that are there to be parsed are all but the last one, which is the end mark. -/
theorem Lexed.front_tokens (source : String) :
    Parsed.front (ofSource source).tokens = (ofSource source).tokens.dropLast := by
  have hothers : ∀ t ∈ (Piece.locate .start (Piece.all source.toList)).filterMap Piece.token?,
      (t.kind != .eof) = true := fun t ht => bne_iff_ne.2 (Piece.token_of_mem ht).2.1
  simp only [Parsed.front, ofSource, ofText]
  rw [List.takeWhile_append_of_pos hothers, List.dropLast_concat]
  exact List.append_nil _

/-- Tokens at the same places of two sources stand in the same order in both. -/
theorem Lexed.start_le_iff {source source' : String} {t t' u u' : Token}
    (ht : (t, t') ∈ (ofSource source).tokens.zip (ofSource source').tokens)
    (hu : (u, u') ∈ (ofSource source).tokens.zip (ofSource source').tokens) :
    t.span.start ≤ u.span.start ↔ t'.span.start ≤ u'.span.start := by
  obtain ⟨i, hi, hti⟩ := List.mem_iff_getElem.1 ht
  obtain ⟨j, hj, huj⟩ := List.mem_iff_getElem.1 hu
  rw [List.getElem_zip, Prod.mk.injEq] at hti huj
  rw [List.length_zip] at hi hj
  obtain ⟨rfl, rfl⟩ := hti
  obtain ⟨rfl, rfl⟩ := huj
  have hlt := List.pairwise_iff_getElem.1 (pairwise_tokens source)
  have hlt' := List.pairwise_iff_getElem.1 (pairwise_tokens source')
  -- Tokens are in the order of their places, and two that belong together have the same position in
  -- both lists.
  obtain hij | rfl | hij := Nat.lt_trichotomy i j
  · have h₁ := hlt i j (by omega) (by omega) hij
    have h₂ := hlt' i j (by omega) (by omega) hij
    omega
  · exact Iff.intro (fun _ => Nat.le_refl _) fun _ => Nat.le_refl _
  · have h₁ := hlt j i (by omega) (by omega) hij
    have h₂ := hlt' j i (by omega) (by omega) hij
    omega

/-- Notes about the same faults at matching tokens are worded the same. -/
theorem Matching.Note.wording_eq {c : Matching} {d d' : Diagnostic} (h : c.Note d d') :
    d.wording = d'.wording := by
  cases h with
  | @about t t' fault ht =>
    have hnear : Diagnostic.nearText t = Diagnostic.nearText t' := by
      rw [Diagnostic.nearText, Diagnostic.nearText, (c.sameText ht).kind, (c.sameText ht).lexeme]
    exact Prod.ext rfl (Prod.ext (congrArg some hnear) rfl)

/-- The sorted diagnostics of two sources with the same tokens are worded the same. -/
theorem Lexed.map_wording_mergeSort {source source' : String}
    (htokens : List.Forall₂ Token.SameText (ofSource source).tokens (ofSource source').tokens)
    {ds ds' : List Diagnostic} (hds : List.Forall₂ (Matching.inStep htokens).Note ds ds') :
    (ds.mergeSort fun d e => decide (d.span.start ≤ e.span.start)).map Diagnostic.wording =
      (ds'.mergeSort fun d e => decide (d.span.start ≤ e.span.start)).map Diagnostic.wording := by
  refine List.Forall₂.map_eq (hds.rel_mergeSort ?_) Matching.Note.wording_eq
  intro d d' e e' hd he
  cases hd with
  | about fault ht =>
    cases he with
    | about fault' hu => exact decide_eq_decide.2 (start_le_iff ht hu)

/-! ## Sources -/

/-- Two sources with the same tokens, wherever these are, are both rejected with diagnostics that
    are worded the same, or both accepted with the same outline. In that case they do the same on
    every machine, however far they are run. -/
theorem Program.ofSource_layout {source source' : String}
    (hclean : (Lexed.ofSource source).diagnostics = [])
    (hclean' : (Lexed.ofSource source').diagnostics = [])
    (htokens : List.Forall₂ Token.SameText (Lexed.ofSource source).tokens
      (Lexed.ofSource source').tokens) :
    (∃ ds ds', ofSource source = .error ds ∧ ofSource source' = .error ds' ∧
      ds.map Diagnostic.wording = ds'.map Diagnostic.wording) ∨
    (∃ p p', ofSource source = .ok p ∧ ofSource source' = .ok p' ∧ p.outline = p'.outline ∧
      ∀ (m : Machine) (fuel : Nat), 0 < m.scopes.size →
        (m.runSource fuel source).1.Agree (m.runSource fuel source').1 ∧
          (m.runSource fuel source).2.Agree (m.runSource fuel source').2) := by
  have hstop := Lexed.exists_eof source
  obtain ⟨hprograms, -⟩ := Matching.anywhere.ofTokens_alike htokens hstop
  -- The tokens at fault have to be told apart by where they are in the list, to see that they keep
  -- their order.
  have hzip : List.Forall₂ (Matching.inStep htokens).token (Lexed.ofSource source).tokens
      (Lexed.ofSource source').tokens :=
    List.forall₂_iff_zip.2 ⟨htokens.length_eq, fun hmem => hmem⟩
  obtain ⟨-, hnotes⟩ := (Matching.inStep htokens).ofTokens_alike hzip hstop
  by_cases hempty : (Parsed.ofTokens (Lexed.ofSource source).tokens).diagnostics = []
  · have hempty' : (Parsed.ofTokens (Lexed.ofSource source').tokens).diagnostics = [] := by
      rw [hempty] at hnotes
      exact List.forall₂_nil_left_iff.1 hnotes
    have hp := ofSource_of_lexed hclean
    have hp' := ofSource_of_lexed hclean'
    rw [hempty] at hp
    rw [hempty'] at hp'
    refine .inr ⟨_, _, hp, hp', Matching.outline_eq hprograms, fun m fuel hglobals => ?_⟩
    rw [Machine.runSource_of_ok hp, Machine.runSource_of_ok hp']
    exact run_agree hprograms hglobals fuel
  · have hempty' : (Parsed.ofTokens (Lexed.ofSource source').tokens).diagnostics ≠ [] := by
      intro hnil
      rw [hnil] at hnotes
      exact hempty (List.forall₂_nil_right_iff.1 hnotes)
    have hp := ofSource_of_lexed hclean
    have hp' := ofSource_of_lexed hclean'
    rw [if_neg (by simpa using hempty)] at hp
    rw [if_neg (by simpa using hempty')] at hp'
    exact .inl ⟨_, _, hp, hp', Lexed.map_wording_mergeSort htokens hnotes⟩

/-- A comment in front and a blank more, with the same tree and the same run on any machine. -/
theorem Program.ofSource_layout_commented :
    ∃ p p', ofSource "print x;" = .ok p ∧ ofSource "// shown\nprint x ;" = .ok p' ∧
      p.outline = p'.outline ∧
      ∀ (m : Machine) (fuel : Nat), 0 < m.scopes.size →
        (m.runSource fuel "print x;").1.Agree (m.runSource fuel "// shown\nprint x ;").1 ∧
          (m.runSource fuel "print x;").2.Agree (m.runSource fuel "// shown\nprint x ;").2 := by
  have htokens : (Lexed.ofSource "print x;").tokens =
      [.plain .printWord "print" ⟨0, 5, 1⟩, .plain .identifier "x" ⟨6, 7, 1⟩,
        .plain .semi ";" ⟨7, 8, 1⟩, .eof 8 1] := by decide +kernel
  have htokens' : (Lexed.ofSource "// shown\nprint x ;").tokens =
      [.plain .printWord "print" ⟨9, 14, 2⟩, .plain .identifier "x" ⟨15, 16, 2⟩,
        .plain .semi ";" ⟨17, 18, 2⟩, .eof 18 2] := by decide +kernel
  -- The source is accepted, so the case in which both are rejected does not arise.
  refine (ofSource_layout (by decide +kernel) (by decide +kernel) ?_).resolve_left ?_
  · rw [htokens, htokens']
    exact .cons ⟨rfl, rfl, rfl⟩ (.cons ⟨rfl, rfl, rfl⟩
      (.cons ⟨rfl, rfl, rfl⟩ (.cons ⟨rfl, rfl, rfl⟩ .nil)))
  · rintro ⟨ds, ds', hrejected, -⟩
    have haccepted : (ofSource "print x;").isOk = true := by decide +kernel
    rw [hrejected] at haccepted
    exact Bool.false_ne_true haccepted

end Treewalk
