import Treewalk.Diagnostic

/-! # Steps of the parser

A production reads a value off the front of a list of tokens, or meets a token that the grammar does
not allow and gives up in front of it. A `Step` is the outcome: the value or the fault, the tokens
that are left, and the diagnostics noted on the way. Its bounds are part of the type. `Step α n k`
comes from at most `n` tokens and, if it has a value, has used up at least `k` of them, which is
what makes the recursion of the grammar well founded. -/

namespace Treewalk

/-- The outcome of a production on a list of at most `n` tokens that reads at least `k` of them. A
fault is about the first token that is left, or about the end if none is. -/
inductive Step (α : Type) (n k : Nat) where
  | done (value : α) (rest : List Token) (notes : List Diagnostic) (fits : rest.length + k ≤ n)
  | stuck (fault : SyntaxFault) (rest : List Token) (notes : List Diagnostic)
      (fits : rest.length ≤ n)

namespace Step

variable {α β : Type} {n k j m i : Nat}

/-- The tokens that are left. -/
def rest : Step α n k → List Token
  | done _ rest _ _ => rest
  | stuck _ rest _ _ => rest

/-- The diagnostics noted on the way. -/
def notes : Step α n k → List Diagnostic
  | done _ _ notes _ => notes
  | stuck _ _ notes _ => notes

/-- A value that reads nothing. -/
def pure (value : α) (tokens : List Token) : Step α tokens.length 0 :=
  done value tokens [] (Nat.le_refl _)

/-- Gives up in front of the first of `tokens`. -/
def fail (fault : SyntaxFault) (tokens : List Token) : Step α tokens.length k :=
  stuck fault tokens [] (Nat.le_refl _)

/-- Goes on behind a value. The second step sees how short the rest is, and its notes come last. -/
def bind (s : Step α n k) (next : α → (rest : List Token) → rest.length + k ≤ n →
    Step β rest.length j) : Step β n (k + j) :=
  match s with
  | done value rest notes fits =>
    match next value rest fits with
    | done value' rest' notes' fits' => done value' rest' (notes ++ notes') (by omega)
    | stuck fault rest' notes' fits' => stuck fault rest' (notes ++ notes') (by omega)
  | stuck fault rest notes fits => stuck fault rest notes fits

/-- Changes the value. -/
def map (f : α → β) : Step α n k → Step β n k
  | done value rest notes fits => done (f value) rest notes fits
  | stuck fault rest notes fits => stuck fault rest notes fits

/-- Promises nothing. -/
def maybe (s : Step α n k) : Step α n 0 :=
  match s with
  | done value rest notes fits => done value rest notes (by omega)
  | stuck fault rest notes fits => stuck fault rest notes fits

/-- Promises one token, not more. -/
def once (s : Step α n (k + 1)) : Step α n 1 :=
  match s with
  | done value rest notes fits => done value rest notes (by omega)
  | stuck fault rest notes fits => stuck fault rest notes fits

/-- A step on fewer tokens, as a step on more of which the others are used up. -/
def within (s : Step α n k) (h : n + j ≤ m) : Step α m (k + j) :=
  match s with
  | done value rest notes fits => done value rest notes (by omega)
  | stuck fault rest notes fits => stuck fault rest notes (by omega)

/-- The step behind a token that has been read. -/
def behind {tokens : List Token} (s : Step α tokens.length k) (t : Token) :
    Step α (t :: tokens).length (k + 1) :=
  s.within (by simp)

/-- Adds a diagnostic behind the others if there is a value. -/
def note (s : Step α n k) (d : Diagnostic) : Step α n k :=
  match s with
  | done value rest notes fits => done value rest (notes ++ [d]) fits
  | stuck fault rest notes fits => stuck fault rest notes fits

/-- Adds diagnostics in front of the others. -/
def precede (earlier : List Diagnostic) (s : Step α n k) : Step α n k :=
  match s with
  | done value rest notes fits => done value rest (earlier ++ notes) fits
  | stuck fault rest notes fits => stuck fault rest (earlier ++ notes) fits

/-- Reads a token of one kind. -/
def expect (kind : Kind) (fault : SyntaxFault) : (tokens : List Token) → Step Token tokens.length 1
  | t :: rest => if t.kind = kind then done t rest [] (by simp) else fail fault (t :: rest)
  | [] => fail fault []

end Step

end Treewalk
