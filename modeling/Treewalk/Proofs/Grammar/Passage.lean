import Treewalk.Proofs.Grammar.Outcome
import Treewalk.Proofs.Grammar.Rules

/-!
# What holds from where a production starts to where it stops

A production starts at some tokens, leaves some of them, and makes notes on the way, whether it has
read something or is stuck. A relation between the three is a *passage* if it holds of each single
thing that the parser does there: reading a token, noting that something cannot be assigned to, and
going on after a fault. Then it holds of every production, of a block as well as of a literal
(`Passage.rules`), and of all declarations up to the end.
-/

namespace Treewalk

/-! ## Passages -/

namespace Grammar

/-- A relation between the tokens in front of which reading starts, those in front of which it
    stops, and the notes made between, that holds of everything the parser does. -/
structure Passage (stop : Token) (R : List Token → List Token → List Diagnostic → Prop) : Prop where
  refl (tokens : List Token) : R tokens tokens []
  trans {tokens rest rest' : List Token} {notes notes' : List Diagnostic} (h : R tokens rest notes)
    (h' : R rest rest' notes') : R tokens rest' (notes ++ notes')
  /-- A token is read. -/
  read (t : Token) (rest : List Token) : R (t :: rest) rest []
  /-- Behind an equals sign a value is read, which cannot be assigned to what is in front. -/
  target {equals : Token} (hequals : equals.kind = .eq) {tokens rest : List Token}
    {notes : List Diagnostic}
    (h : R tokens rest notes) : R (equals :: tokens) rest
      (notes ++ [.syntactic equals .assignmentTarget])
  /-- A fault is noted, and reading goes on behind it. -/
  recover (rest : List Token) (fault : SyntaxFault) : R rest (resume rest) [blame stop rest fault]

end Grammar

namespace Step

variable {α β : Type} {n k j : Nat} {tokens : List Token}
variable {R : List Token → List Token → List Diagnostic → Prop}

/-- The relation holds from the tokens to where the step stops. -/
def Passes (s : Step α n k) (tokens : List Token)
    (R : List Token → List Token → List Diagnostic → Prop) : Prop :=
  s.Ensures (fun _ rest notes => R tokens rest notes) (fun _ rest notes => R tokens rest notes)

end Step

namespace Grammar.Passage

open Step

variable {α β : Type} {n k j : Nat} {tokens : List Token}
variable {stop : Token} {R : List Token → List Token → List Diagnostic → Prop}

/-- The passages of two steps make up one, from where the first starts to where the second stops. -/
theorem bind (hR : Passage stop R) {s : Step α n k}
    {next : α → (rest : List Token) → rest.length + k ≤ n → Step β rest.length j}
    (h : s.Passes tokens R) (hnext : ∀ a rest fits, (next a rest fits).Passes rest R) :
    (s.bind next).Passes tokens R := by
  refine (ensures_bind s next).2 (Ensures.imp h ?_ fun _ _ _ hfault => hfault)
  intro a rest notes hfirst fits
  exact Ensures.imp (hnext a rest fits) (fun _ _ _ => hR.trans hfirst) fun _ _ _ => hR.trans hfirst

/-- A token in front of a step is passed, and then the step is. -/
theorem behind (hR : Passage stop R) {s : Step α tokens.length k} (h : s.Passes tokens R)
    (t : Token) : (s.behind t).Passes (t :: tokens) R :=
  (ensures_behind s t).2 (Ensures.imp h (fun _ _ _ => hR.trans (hR.read t tokens))
    fun _ _ _ => hR.trans (hR.read t tokens))

/-- An expected token is passed if it is there, and nothing is if it is not. -/
theorem expect (hR : Passage stop R) (kind : Kind) (fault : SyntaxFault) (tokens : List Token) :
    (Step.expect kind fault tokens).Passes tokens R := by
  cases tokens with
  | nil => exact hR.refl []
  | cons t rest =>
    refine (ensures_expect_cons kind fault t rest).2 ?_
    split
    · exact hR.read t rest
    · exact hR.refl (t :: rest)

/-- A declaration that the grammar is stuck in goes on behind the fault. -/
theorem recovered (hR : Passage stop R) (h : 0 < n) {s : Step Stmt n 1} (hs : s.Passes tokens R) :
    R tokens (Grammar.recover stop h s).rest (Grammar.recover stop h s).notes := by
  cases s with
  | done statement rest notes fits => exact hs
  | stuck fault rest notes fits => exact hR.trans hs (hR.recover rest fault)

/-- The productions pass as their parts do. -/
theorem rules (hR : Passage stop R) :
    Rules stop (fun s tokens => s.Passes tokens R) (fun s tokens => s.Passes tokens R) R where
  pure _ tokens := hR.refl tokens
  fail _ tokens := hR.refl tokens
  expect := hR.expect
  bind := hR.bind
  map _ h := (ensures_map _ _).2 h
  maybe h := (ensures_maybe _).2 h
  once h := (ensures_once _).2 h
  -- The target is only noted if there is a value; without one the equals sign was just read.
  target hequals h := by
    refine (ensures_maybe _).2 ((ensures_note _ _).2 ((ensures_behind _ _).2 (Ensures.imp h ?_ ?_)))
    · exact fun _ _ _ => hR.target hequals
    · exact fun _ _ _ => hR.trans (hR.read _ _)
  inside h := h
  bindInside := hR.bind
  mapInside _ h := (ensures_map _ _).2 h
  behind := hR.behind
  recover h := hR.recovered _ h
  within g hfits h hs := by
    rw [Step.Passes, ensures_within, ensures_precede, ensures_map]
    exact Ensures.imp hs (fun _ _ _ => hR.trans h) fun _ _ _ => hR.trans h
  nothing := hR.refl []
  trans := hR.trans

end Grammar.Passage

end Treewalk
