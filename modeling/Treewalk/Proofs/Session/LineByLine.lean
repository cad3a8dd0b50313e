import Treewalk.Proofs.Evaluation.Fuel
import Treewalk.Proofs.Grammar.Locality
import Treewalk.Proofs.Session.Layout
import Treewalk.Proofs.Session.Printing
import Treewalk.Proofs.Session.Restoration
import Treewalk.Proofs.Token.Seam

/-!
# Line by line, or all at once

A host may run one source and then another, or both at once with a line break between them. It makes
no difference, as long as the first one would be carried out to its end
(`Machine.runSource_line_by_line`).

No stage looks across the line break. The first source is accepted, so its strings are closed and
the lexer starts anew behind the line break; nothing is wrong with its last statement, so the parser
does not wait for more; and what the first source leaves behind is all on the machine. Only the
places of what stands in the second source are others.
-/

namespace Treewalk

/-! ## Tokens of two sources -/

namespace Lexed

/-- A source in which nothing is wrong has all its strings closed. -/
theorem unterminated_notMem_of_clean {source : String} (hclean : (ofSource source).diagnostics = [])
    (body : List Char) : Piece.unterminated body ∉ Piece.all source.toList := by
  refine unterminated_notMem (fun d hd => ?_) body
  rw [← ofSource, hclean] at hd
  exact absurd hd List.not_mem_nil

section

variable {a b : String} (hclean : (ofSource a).diagnostics = [])

include hclean

/-- To be parsed are the tokens of both sources, those of the second one further on. -/
theorem front_append_newline (b : String) :
    ∃ moved, Parsed.front (ofSource (a ++ "\n" ++ b)).tokens = Parsed.front
      (ofSource a).tokens ++ moved ∧
      List.Forall₂ Token.SameText (Parsed.front (ofSource b).tokens) moved := by
  have hne : (ofText b.toList).tokens ≠ [] :=
    List.append_ne_nil_of_right_ne_nil _ (List.cons_ne_nil _ _)
  refine ⟨(Parsed.front (ofSource b).tokens).map
    (.shift (Text.byteSize a.toList + 1) (a.toList.count '\n' + 1)), ?_, ?_⟩
  · rw [front_tokens, front_tokens, front_tokens, ofSource_append_newline,
      tokens_append_newline (unterminated_notMem_of_clean hclean),
        List.dropLast_append_of_ne_nil (by simpa using hne),
      List.map_dropLast]
    rfl
  · exact List.forall₂_map_right_iff.2 (List.forall₂_same.2 fun t _ => ⟨rfl, rfl, rfl⟩)

/-- Sources without faults of the lexer have none when a line break is put between them. -/
theorem diagnostics_of_clean (hclean' : (ofSource b).diagnostics = []) :
    (ofSource (a ++ "\n" ++ b)).diagnostics = [] := by
  rw [ofSource] at hclean hclean'
  rw [ofSource_append_newline, diagnostics_append_newline (unterminated_notMem_of_clean hclean),
    hclean, hclean']
  rfl

end

end Lexed

/-! ## Programs of two sources -/

/-- A source is accepted if neither the lexer nor the parser finds anything wrong with it. -/
theorem Program.ofSource_eq_ok_iff {source : String} {p : Program} :
    ofSource source = .ok p ↔
      (Lexed.ofSource source).diagnostics = [] ∧
        Grammar.declarations (Parsed.stopOf (Lexed.ofSource source).tokens)
          (Parsed.front (Lexed.ofSource source).tokens) = (p.statements, []) := by
  rw [ofSource, Parsed.ofTokens, ← Parsed.front]
  generalize Grammar.declarations _ _ = parsed
  obtain ⟨statements, notes⟩ := parsed
  obtain ⟨kept⟩ := p
  cases (Lexed.ofSource source).diagnostics <;> cases notes <;> simp

/-- Two sources that are accepted are accepted together, and the program is that of both, one behind
    the other. -/
theorem Program.ofSource_append_newline {a b : String} {p q : Program} (hp : ofSource a = .ok p)
    (hq : ofSource b = .ok q) :
    ∃ moved, ofSource (a ++ "\n" ++ b) = .ok ⟨p.statements ++ moved⟩ ∧
      List.Forall₂ Matching.anywhere.trees.stmt q.statements moved := by
  obtain ⟨hlexed, hparsed⟩ := ofSource_eq_ok_iff.1 hp
  obtain ⟨hlexed', hparsed'⟩ := ofSource_eq_ok_iff.1 hq
  obtain ⟨tokens, hfront, htokens⟩ := Lexed.front_append_newline hlexed b
  generalize Parsed.stopOf (Lexed.ofSource a).tokens = stop at hparsed
  generalize Parsed.stopOf (Lexed.ofSource b).tokens = stop' at hparsed'
  -- The second source is read as before, and does not start with what the first one could go on
  -- with.
  obtain ⟨hstatements, hnotes⟩ :=
    Grammar.declarations_alike (c := .anywhere) (Token.SameText.refl stop') htokens
  rw [hparsed'] at hstatements hnotes
  have hclean : (Grammar.declarations stop' tokens).2 = [] := List.forall₂_nil_left_iff.1 hnotes
  have hmore := Grammar.starts_else_of_clean stop' tokens hclean
  refine ⟨_, ofSource_eq_ok_iff.2 ⟨Lexed.diagnostics_of_clean hlexed hlexed', ?_⟩, hstatements⟩
  rw [hfront, Grammar.declarations_append stop _ hmore _ (by rw [hparsed]), hparsed,
    Grammar.declarations_of_clean stop' _ tokens hclean, hclean]

/-! ## Statements behind others -/

/-- Statements behind others that are carried out to their end run on the machine that these
    leave. -/
theorem Run.outcome_inOrder_append {step : Stmt → Run Flow} {front : List Stmt} {m m' : Machine}
    (h : (inOrder step front).outcome m = (.done .normal, m')) (behind : List Stmt) :
    (inOrder step (front ++ behind)).outcome m = (inOrder step behind).outcome m' := by
  -- All of the first statements end normally, so each of them hands its machine on to the next one.
  induction front generalizing m with
  | nil =>
    rw [inOrder, outcome_pure] at h
    rw [List.nil_append, (Prod.mk.inj h).2]
  | cons s front ih =>
    rw [List.cons_append, inOrder, outcome_bind]
    rw [inOrder, outcome_bind] at h
    cases hfirst : (step s).outcome m with
    | mk outcome m₁ =>
      rw [hfirst] at h
      cases outcome with
      | done flow =>
        cases flow with
        | normal => exact ih h
        | result value => cases h
      | failed error => cases h
      | unfinished => cases h

namespace Program

/-- With enough fuel, a program is carried out to its last statement and leaves this machine: it is
    not stopped, and no statement of it ends with a result. -/
def Finishes (p : Program) (m m' : Machine) : Prop :=
  ∃ fuel, (inOrder (execute fuel) p.statements).outcome m = (.done .normal, m')

variable {p : Program} {fuel : Nat} {m m' : Machine}
  (h : (inOrder (execute fuel) p.statements).outcome m = (.done .normal, m'))

include h

/-- More fuel does not change how the first source finishes. -/
theorem finished_mono {fuel' : Nat} (hle : fuel ≤ fuel') :
    (inOrder (execute fuel') p.statements).outcome m = (.done .normal, m') := by
  rw [Run.RefinesTo.inOrder (execute_mono hle) p.statements m (by rw [h]; nofun), h]

/-- The first source ends where all of its statements have ended normally. -/
theorem outcome_run_of_finished : (p.run fuel).outcome m = (.done (), m') := by
  rw [run, Run.outcome_bind, h]
  rfl

/-- What stands behind the first source runs on the machine that this one leaves. -/
theorem outcome_run_append (behind : List Stmt) :
    (run fuel ⟨p.statements ++ behind⟩).outcome m = (run fuel ⟨behind⟩).outcome m' := by
  rw [run, run, Run.outcome_bind, Run.outcome_bind, Run.outcome_inOrder_append h]

end Program

/-! ## Sessions -/

namespace Machine

variable {m m₁ : Machine} {a b : String} {p q : Program}

/-- With the fuel that carries out the first source, both sources at once do what the second one
    does on the machine that the first one leaves. -/
theorem runSource_append_newline (hglobals : 0 < m.scopes.size) (hp : Program.ofSource a = .ok p)
    (hq : Program.ofSource b = .ok q) {fuel : Nat}
    (hrun : (inOrder (execute fuel) p.statements).outcome m = (.done .normal, m₁)) :
    (m₁.runSource fuel b).1.Agree (m.runSource fuel (a ++ "\n" ++ b)).1 ∧
      (m₁.runSource fuel b).2.Agree (m.runSource fuel (a ++ "\n" ++ b)).2 := by
  obtain ⟨moved, hboth, hmoved⟩ := Program.ofSource_append_newline hp hq
  have hglobals₁ : 0 < m₁.scopes.size := by
    have hplace := evolution_samePlace.inOrder fuel p.statements m
    rw [hrun] at hplace
    rw [← Forest.length_links, hplace.2, Forest.length_links]
    exact hglobals
  rw [runSource_of_ok hq, runSource_of_ok hboth, Program.outcome_run_append hrun]
  exact Program.run_agree hmoved hglobals₁ fuel

/-- Two sources that are run one after the other do the same as both at once with a line break
    between them, if the first one is carried out to its end. -/
theorem runSource_line_by_line (hglobals : 0 < m.scopes.size) (hp : Program.ofSource a = .ok p)
    (hq : Program.ofSource b = .ok q) (hrun : p.Finishes m m₁) :
    m.Ends a .completed m₁ ∧
      ((m₁.Diverges b ∧ m.Diverges (a ++ "\n" ++ b)) ∨
        ∃ ending ending' m₂ m₂', m₁.Ends b ending m₂ ∧ m.Ends (a ++ "\n" ++ b) ending' m₂' ∧
          ending.Agree ending' ∧ m₂.Agree m₂') := by
  obtain ⟨fuel₁, hrun⟩ := hrun
  have hagree (fuel : Nat) (h : fuel₁ ≤ fuel) :=
    runSource_append_newline hglobals hp hq (Program.finished_mono hrun h)
  refine ⟨⟨nofun, fuel₁, by rw [runSource_of_ok hp, Program.outcome_run_of_finished hrun]; rfl⟩, ?_⟩
  by_cases hends : ∃ fuel, (m₁.runSource fuel b).1 ≠ .unfinished
  · obtain ⟨fuel, hfinished⟩ := hends
    have henough := runSource_mono (Nat.le_max_right fuel₁ fuel) hfinished
    rw [← henough] at hfinished
    obtain ⟨hending, hmachine⟩ := hagree _ (Nat.le_max_left fuel₁ fuel)
    exact .inr ⟨_, _, _, _, ⟨hfinished, _, rfl⟩,
      ⟨fun hunfinished => hfinished (hending.unfinished_iff.2 hunfinished), _, rfl⟩, hending,
      hmachine⟩
  · have hdiverges : m₁.Diverges b := fun fuel => by_contra fun hfinished => hends ⟨fuel, hfinished⟩
    refine .inl ⟨hdiverges, fun fuel => by_contra fun hfinished => ?_⟩
    -- With as much fuel as the first source needs, too, both at once would have ended as the second
    -- one does.
    have henough := runSource_mono (Nat.le_max_right fuel₁ fuel) hfinished
    obtain ⟨hending, -⟩ := hagree _ (Nat.le_max_left fuel₁ fuel)
    rw [henough] at hending
    exact hfinished (hending.unfinished_iff.1 (hdiverges _))

/-- A line with a comment at its end, which must not run on into the line behind it. -/
theorem runSource_line_by_line_commented :
    ∃ ending ending' m m', ((start [] .unlimited).declareGlobal "x" .null).Ends "print x;" ending
      m ∧
      (start [] .unlimited).Ends ("variable x; // unset" ++ "\n" ++ "print x;") ending' m' ∧
      ending.Agree ending' ∧ m.Agree m' := by
  let x (span : Span) : Token := .plain .identifier "x" span
  let there : Machine := (start [] .unlimited).declareGlobal "x" .null
  have hp : Program.ofSource "variable x; // unset" = .ok ⟨[.declare (x ⟨9, 10, 1⟩) none]⟩ := by
    with_unfolding_all rfl
  have hq : Program.ofSource "print x;" =
      .ok ⟨[.print (.plain .printWord "print" ⟨0, 5, 1⟩) (.name (x ⟨6, 7, 1⟩))]⟩ := by
    with_unfolding_all rfl
  have hrun : Program.Finishes ⟨[.declare (x ⟨9, 10, 1⟩) none]⟩ (start [] .unlimited) there :=
    ⟨2, rfl⟩
  -- The second line completes on the machine that the first one leaves, so it does not diverge.
  refine (runSource_line_by_line (by decide) hp hq hrun).2.resolve_left ?_
  rintro ⟨hdiverges, -⟩
  have hcompleted : (there.runSource 2 "print x;").1 = .completed := by
    have hvalue : (evaluate 1 (.name (x ⟨6, 7, 1⟩))).outcome there = (.done .null, there) := by
      with_unfolding_all rfl
    have hprint :=
      outcome_print_of_unlimited (.plain .printWord "print" ⟨0, 5, 1⟩) hvalue rfl
    simp only [runSource_of_ok hq, Program.run, inOrder, Run.outcome_bind, hprint,
      Run.outcome_pure]
    rfl
  rw [hdiverges 2] at hcompleted
  cases hcompleted

end Machine

end Treewalk
