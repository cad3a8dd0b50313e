import Treewalk.Proofs.Grammar.Soundness
import Treewalk.Proofs.Session.Location
import Treewalk.Proofs.Tree.Outline

/-!
# Outlines of sources

The program of an accepted source is made of the tokens of the source, so two such programs have the
same outline only if they differ in nothing but places (`Program.outline_shows_all_but_places`).
-/

namespace Treewalk.Program

variable {source source' : String} {p p' : Program}

/-- The program of a source is made of genuine tokens. -/
theorem genuine_of_ofSource (h : ofSource source = .ok p) : TokenSlot.Genuine p.slots := by
  obtain ⟨taken, kept, htaken, hsub, hspells, -⟩ := Grammar.declarations_accounts
    (Parsed.stopOf (Lexed.ofSource source).tokens) (Parsed.front (Lexed.ofSource source).tokens)
  rw [eq_of_ofSource h]
  rw [List.append_nil] at htaken
  refine hspells.genuine fun t ht => ?_
  have hfront : t ∈ Parsed.front (Lexed.ofSource source).tokens := htaken ▸ hsub.subset ht
  have hmem : t ∈ (Lexed.ofSource source).tokens := (List.takeWhile_prefix _).subset hfront
  exact Lexed.genuine_of_mem_tokens hmem

/-- **Outlines show everything but places.** If no number of two accepted sources is infinite, their
    programs have the same outline exactly if they are the same when the spans and lines of all
    tokens and operators are taken away. -/
theorem outline_shows_all_but_places (hp : ofSource source = .ok p)
    (hp' : ofSource source' = .ok p')
    (hfinite : AllFinite p.numbers) (hfinite' : AllFinite p'.numbers) :
    p.outline = p'.outline ↔ p.unplaced = p'.unplaced :=
  outline_eq_iff (genuine_of_ofSource hp) (genuine_of_ofSource hp') hfinite hfinite'

/-- A string that looks like the end of a list and the begin of another one, and the same a line
    further down. -/
theorem outline_shows_all_but_places_of_string :
    ∃ p p', ofSource "x = [\") (\", 0];" = .ok p ∧ ofSource "// \n x=[ \") (\", 0 ] ;" = .ok p' ∧
      p.outline = p'.outline ∧ p.unplaced = p'.unplaced := by
  let program (span : Span) : Program :=
    ⟨[.expression (.assign (.plain .identifier "x" span)
      (.array [.literal (.string ") ("), .literal (.number 0)]))]⟩
  have hp : ofSource "x = [\") (\", 0];" = .ok (program ⟨0, 1, 1⟩) := by cbv
  have hp' : ofSource "// \n x=[ \") (\", 0 ] ;" = .ok (program ⟨5, 6, 2⟩) := by cbv
  -- The only number in it is zero, which has a finite text.
  have hfinite (span : Span) : AllFinite (program span).numbers := by
    have hzero : Number.IsFinite 0 := ⟨⟨false, 0, -1074⟩, by decide⟩
    simp [program, numbers, Stmt.numbersOf, Stmt.numbers, Expr.numbers, Expr.numbersOf,
      Literal.numbers, Token.numbers, Token.plain, hzero]
  have houtline : (program ⟨0, 1, 1⟩).outline = (program ⟨5, 6, 2⟩).outline := rfl
  exact ⟨_, _, hp, hp', houtline,
    (outline_shows_all_but_places hp hp' (hfinite _) (hfinite _)).1 houtline⟩

end Treewalk.Program
