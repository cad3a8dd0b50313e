import Treewalk.Proofs.Grammar.Passage
import Treewalk.Proofs.Grammar.Soundness

/-!
# The parser gets on and comes to an end

A *position* in a list of tokens is one in front of the first end mark, or the one where the parser
stops: at this end mark, or behind the last token if there is none (`Parsed.endPosition`). At a
position the tokens up to the end mark are ahead (`Parsed.ahead`). Every production starts at a
position and stops at one that is no earlier, and every statement or expression that is read takes
some token (`Grammar.Production.movesOn`). A declaration gets on in any case, since recovery drops
the token that it is stuck in front of.

So the loops over declarations need at most one turn for each token. `Grammar.loopWithin` is such a
loop that gives up after so many turns. With as many turns as there are tokens ahead, the one for a
program ends with what the parser makes of them (`Grammar.loopWithin_declarations`), and the one for
a block where this can be closed (`Grammar.block_eq_loopWithin`).

The main statement, `Parsed.progress`, says all this for every list of tokens.
-/

namespace Treewalk

namespace Grammar

/-! ## Productions -/

/-- What the parser leaves is always the end of what there was. -/
theorem passage_suffix (stop : Token) : Passage stop fun tokens rest _ => rest <:+ tokens where
  refl tokens := List.suffix_refl tokens
  trans h h' := h'.trans h
  read t rest := List.suffix_cons t rest
  target {equals} _ {tokens _ _} h := h.trans (List.suffix_cons equals tokens)
  recover rest _ := resume_suffix rest

/-- The productions of the grammar, each with the least number of tokens that it reads if it has a
    value. -/
inductive Production (stop : Token) :
    (α : Type) → (least : Nat) → ((tokens : List Token) → Step α tokens.length least) → Prop where
  | expression : Production stop Expr 1 expression
  | assignment (target : Expr) : Production stop Expr 0 (assignment target)
  | chain (l : Level) : Production stop Expr 1 (chain l)
  | operand (l : Level) : Production stop Expr 1 (operand l)
  | chainMore (l : Level) (left : Expr) : Production stop Expr 0 (chainMore l left)
  | unary : Production stop Expr 1 unary
  | call : Production stop Expr 1 call
  | callMore (callee : Expr) : Production stop Expr 0 (callMore callee)
  | primary : Production stop Expr 1 primary
  | arguments (close : Kind) : Production stop (List Expr) 0 (arguments close)
  | argumentsMore : Production stop (List Expr) 0 argumentsMore
  | terminated (fault : SyntaxFault) : Production stop Expr 1 (terminated fault)
  | initializer : Production stop (Option Expr) 0 initializer
  | variableDeclaration : Production stop Stmt 1 variableDeclaration
  | parameters : Production stop (List Token) 0 parameters
  | parametersMore : Production stop (List Token) 0 parametersMore
  | signature : Production stop (Token × List Token) 1 signature
  | condition (opening closing : SyntaxFault) : Production stop Expr 1 (condition opening closing)
  | result (keyword : Token) : Production stop Stmt 1 (result keyword)
  | statement : Production stop Stmt 1 (statement stop)
  | alternative (test : Expr) (consequent : Stmt) :
      Production stop Stmt 0 (alternative stop test consequent)
  | block : Production stop (List Stmt) 1 (block stop)

/-- What holds of all that the parser does holds of every production. -/
theorem Production.passes {stop : Token} {R : List Token → List Token → List Diagnostic → Prop}
    (hR : Passage stop R) {α : Type} {least : Nat}
    {read : (tokens : List Token) → Step α tokens.length least}
    (h : Production stop α least read) (tokens : List Token) : (read tokens).Passes tokens R := by
  have hrules := hR.rules
  -- The rules have one consequence for each production, and that is what holds here.
  cases h with
  | expression => exact hrules.expression tokens
  | assignment target => exact hrules.assignment target tokens
  | chain l => exact hrules.chain l tokens
  | operand l => exact hrules.operand l tokens
  | chainMore l left => exact hrules.chainMore l left tokens
  | unary => exact hrules.unary tokens
  | call => exact hrules.call tokens
  | callMore callee => exact hrules.callMore callee tokens
  | primary => exact hrules.primary tokens
  | arguments close => exact hrules.arguments close tokens
  | argumentsMore => exact hrules.argumentsMore tokens
  | terminated fault => exact hrules.terminated fault tokens
  | initializer => exact hrules.initializer tokens
  | variableDeclaration => exact hrules.variableDeclaration tokens
  | parameters => exact hrules.parameters tokens
  | parametersMore => exact hrules.parametersMore tokens
  | signature => exact hrules.signature tokens
  | condition opening closing => exact hrules.condition opening closing tokens
  | result keyword => exact hrules.result keyword tokens
  | statement => exact hrules.statement tokens
  | alternative test consequent => exact hrules.alternative test consequent tokens
  | block => exact hrules.block tokens

end Grammar

/-! ## Positions -/

namespace Parsed

/-- The position of the first end mark, or the one behind the last token if there is none. -/
def endPosition (tokens : List Token) : Nat := tokens.findIdx (·.kind == .eof)

/-- The tokens from a position on, up to the first end mark. -/
def ahead (tokens : List Token) (position : Nat) : List Token :=
  (tokens.take (endPosition tokens)).drop position

/-- These tokens are ahead at some position from the given one on, and not behind the first end
    mark. -/
def Reached (tokens : List Token) (position : Nat) (rest : List Token) : Prop :=
  ∃ next, position ≤ next ∧ next ≤ endPosition tokens ∧ rest = ahead tokens next

section

variable {tokens rest : List Token} {position : Nat}

/-- The tokens in front of the first end mark are those ahead of the first position. -/
theorem front_eq_ahead (tokens : List Token) : front tokens = ahead tokens 0 := by
  simp only [front, bne, List.takeWhile_eq_take_findIdx_not, Bool.not_not]
  rfl

/-- The end is no later than behind the last token. -/
theorem endPosition_le (tokens : List Token) : endPosition tokens ≤ tokens.length :=
  List.findIdx_le_length

/-- As many tokens are ahead of a position as there are positions up to the end. -/
theorem length_ahead (tokens : List Token) (position : Nat) :
    (ahead tokens position).length = endPosition tokens - position := by
  rw [ahead, List.length_drop, List.length_take_of_le (endPosition_le tokens)]

/-- What stands at the end position is an end mark. -/
theorem kind_of_getElem?_endPosition {t : Token} (h : tokens[endPosition tokens]? = some t) :
    t.kind = .eof := by
  obtain ⟨hlength, rfl⟩ := List.getElem?_eq_some_iff.1 h
  exact beq_iff_eq.1 (List.findIdx_getElem (w := hlength))

/-- In front of the end position there is a token, which is no end mark and is the first one
    ahead. -/
theorem exists_ahead_eq_cons (h : position < endPosition tokens) :
    ∃ t rest, ahead tokens position = t :: rest ∧ tokens[position]? = some t ∧ t.kind ≠ .eof := by
  have hlength : position < tokens.length := Nat.lt_of_lt_of_le h (endPosition_le tokens)
  have hkind := List.not_of_lt_findIdx h
  refine ⟨tokens[position], ahead tokens (position + 1), ?_, List.getElem?_eq_getElem hlength,
    by simpa using hkind⟩
  rw [ahead, List.drop_eq_getElem_cons (by rw [List.length_take]; omega), List.getElem_take]
  rfl

/-- What is left of the tokens ahead is ahead further on. -/
theorem reached_of_suffix (h : position ≤ endPosition tokens)
    (hsuffix : rest <:+ ahead tokens position) (least : Nat)
    (hless : rest.length + least ≤ (ahead tokens position).length) :
    Reached tokens (position + least) rest := by
  rw [length_ahead] at hless
  refine ⟨endPosition tokens - rest.length, by omega, Nat.sub_le _ _, ?_⟩
  have hall : rest <:+ tokens.take (endPosition tokens) := hsuffix.trans (List.drop_suffix _ _)
  rw [List.suffix_iff_eq_drop, List.length_take_of_le (endPosition_le tokens)] at hall
  exact hall

end

end Parsed

/-- The step starts at a position and stops at one that is no earlier, at the first end mark at the
    latest. If it has a value, it has read as many tokens as it has to. -/
def Step.MovesOn {α : Type} {n k : Nat} (s : Step α n k) (tokens : List Token) (position : Nat) :
    Prop :=
  s.Ensures (fun _ rest _ => Parsed.Reached tokens (position + k) rest)
    fun _ rest _ => Parsed.Reached tokens position rest

namespace Grammar

open Parsed

section

variable {tokens : List Token} {position : Nat}

/-- Every production gets on from where it starts. -/
theorem Production.movesOn {stop : Token} {α : Type} {least : Nat}
    {read : (tokens : List Token) → Step α tokens.length least} (h : Production stop α least read)
    (hposition : position ≤ endPosition tokens) :
    (read (ahead tokens position)).MovesOn tokens position := by
  have hsuffix := h.passes (passage_suffix stop) (ahead tokens position)
  cases hstep : read (ahead tokens position) with
  | done value rest notes fits =>
    rw [hstep] at hsuffix
    exact reached_of_suffix hposition hsuffix least fits
  | stuck fault rest notes fits =>
    rw [hstep] at hsuffix
    exact reached_of_suffix hposition hsuffix 0 fits

/-- A declaration gets on whether it is read or recovered from. -/
theorem reached_declaration (stop : Token) {t : Token} {rest : List Token}
    (hposition : position ≤ endPosition tokens) (hahead : ahead tokens position = t :: rest) :
    Reached tokens (position + 1) (declaration stop t rest).rest := by
  have hsuffix := (passage_suffix stop).rules.declaration t rest
  rw [← hahead] at hsuffix
  exact reached_of_suffix hposition hsuffix 1 (hahead ▸ (declaration stop t rest).fits)

end

/-! ## Loops -/

/-- A loop that reads declarations up to the end of the tokens or to one that ends the loop, and
    gives up after so many turns. If it ends, it has the statements, the tokens that are left, and
    the diagnostics. -/
def loopWithin (stop : Token) (ends : Token → Bool) : Nat → List Token →
    Option (List Stmt × List Token × List Diagnostic)
  | _, [] => some ([], [], [])
  | 0, t :: rest => if ends t then some ([], t :: rest, []) else none
  | turns + 1, t :: rest =>
    if ends t then some ([], t :: rest, [])
    else
      let first := declaration stop t rest
      (loopWithin stop ends turns first.rest).map fun others =>
        (first.statement?.toList ++ others.1, others.2.1, first.notes ++ others.2.2)

/-- With a turn for each token, the loop over all declarations ends with what these are read as. -/
theorem loopWithin_declarations (stop : Token) {turns : Nat} {tokens : List Token}
    (h : tokens.length ≤ turns) :
    loopWithin stop (fun _ => false) turns tokens =
      some ((declarations stop tokens).1, [], (declarations stop tokens).2) := by
  induction turns generalizing tokens with
  | zero =>
    obtain rfl := List.length_eq_zero_iff.1 (Nat.le_zero.1 h)
    rw [loopWithin, declarations]
  | succ turns ih =>
    cases tokens with
    | nil => rw [loopWithin, declarations]
    | cons t rest =>
      -- A declaration leaves fewer tokens than it started with, so a turn less is enough for the
      -- others.
      have hothers : (declaration stop t rest).rest.length ≤ turns :=
        Nat.le_of_lt_succ (Nat.lt_of_lt_of_le (declaration stop t rest).fits h)
      rw [loopWithin, if_neg Bool.false_ne_true, declarations]
      exact congrArg (Option.map _) (ih hothers)

/-- With a turn for each token, the loop over the declarations of a block ends where the block can
    be closed. -/
theorem block_eq_loopWithin (stop : Token) {turns : Nat} {tokens : List Token}
    (h : tokens.length ≤ turns) :
    ∃ body rest notes, ∃ fits : rest.length + 0 ≤ tokens.length,
      loopWithin stop (·.kind == .rBrace) turns tokens = some (body, rest, notes) ∧
        block stop tokens =
          (((Step.expect .rBrace .braceAfterBlock rest).map fun _ => body).precede notes).within
            fits := by
  cases tokens with
  | nil => exact ⟨[], [], [], Nat.le_refl 0, by rw [loopWithin], by rw [block]; rfl⟩
  | cons t rest =>
    by_cases hbrace : t.kind = .rBrace
    · refine ⟨[], t :: rest, [], Nat.le_refl _, ?_, ?_⟩
      · -- At the closing brace the loop stops without a turn.
        cases turns <;> simp [loopWithin, hbrace]
      · rw [block, if_pos hbrace, Step.expect, if_pos hbrace]
        rfl
    · cases turns with
      | zero => exact absurd h (Nat.not_succ_le_zero _)
      | succ turns =>
        have hfits := (declaration stop t rest).fits
        -- The first declaration takes one turn, and what is left of the block is the same loop with
        -- one turn less.
        obtain ⟨body, behind, notes, fits, hloop, hblock⟩ :=
          block_eq_loopWithin stop (Nat.le_of_lt_succ (Nat.lt_of_lt_of_le hfits h))
        refine ⟨(declaration stop t rest).statement?.toList ++ body, behind,
          (declaration stop t rest).notes ++ notes, by rw [List.length_cons]; omega, ?_, ?_⟩
        · rw [loopWithin, if_neg (by simpa using hbrace)]
          exact congrArg (Option.map _) hloop
        · rw [block, if_neg hbrace]
          show (((block stop (declaration stop t rest).rest).map _).precede _).within _ = _
          rw [hblock]
          cases Step.expect .rBrace .braceAfterBlock behind <;>
            simp only [Step.map, Step.precede, Step.within, List.append_assoc]

end Grammar

/-- **The parser always gets on and comes to an end.** The tokens may be any, with an end mark in
    their middle or with none. In front of the end position there is always a token to read a
    declaration from, and this stops further on, read or recovered from. Every production stops at a
    position that is no earlier than the one it starts at and not behind the end position, and has
    read a token if it has to and has a value. The loops over the declarations of the program and of
    any block need no more turns than there are tokens ahead. -/
theorem Parsed.progress (tokens : List Token) :
    (∀ t, tokens[endPosition tokens]? = some t → t.kind = .eof) ∧
    (∀ position < endPosition tokens, ∃ t rest, tokens[position]? = some t ∧ t.kind ≠ .eof ∧
      ahead tokens position = t :: rest ∧
      Reached tokens (position + 1) (Grammar.declaration (stopOf tokens) t rest).rest) ∧
    (∀ α least read, Grammar.Production (stopOf tokens) α least read →
      ∀ position ≤ endPosition tokens, (read (ahead tokens position)).MovesOn tokens position) ∧
    Grammar.loopWithin (stopOf tokens) (fun _ => false) (endPosition tokens) (ahead tokens 0) =
      some ((ofTokens tokens).program.statements, [], (ofTokens tokens).diagnostics) ∧
    ∀ position ≤ endPosition tokens, ∃ body rest notes,
      ∃ fits : rest.length + 0 ≤ (ahead tokens position).length,
        Grammar.loopWithin (stopOf tokens) (·.kind == .rBrace) (endPosition tokens - position)
            (ahead tokens position) = some (body, rest, notes) ∧
          Grammar.block (stopOf tokens) (ahead tokens position) =
            (((Step.expect .rBrace .braceAfterBlock rest).map fun _ => body).precede notes).within
              fits := by
  refine ⟨fun t => kind_of_getElem?_endPosition, ?_, ?_, ?_, ?_⟩
  · -- In front of the end there is a token, which a declaration reads or recovers from.
    intro position hposition
    obtain ⟨t, rest, hahead, htoken, hkind⟩ := exists_ahead_eq_cons hposition
    exact ⟨t, rest, htoken, hkind, hahead,
      Grammar.reached_declaration _ (Nat.le_of_lt hposition) hahead⟩
  · exact fun α least read hread position => hread.movesOn
  · have hprogram :=
      Grammar.loopWithin_declarations (stopOf tokens) (Nat.le_of_eq (length_ahead tokens 0))
    rw [Nat.sub_zero] at hprogram
    rw [hprogram, ← front_eq_ahead]
    rfl
  · intro position _
    exact Grammar.block_eq_loopWithin (stopOf tokens) (Nat.le_of_eq (length_ahead tokens position))

/-- At the first two tokens of an unclosed block, in front of an end mark that is not the last
    token. -/
theorem Parsed.progress_in_unclosed_block :
    let tokens : List Token := [.plain .lBrace "\x7b" ⟨0, 1, 1⟩, .plain .forWord "for" ⟨1, 4, 1⟩,
      .plain .semi ";" ⟨4, 5, 1⟩, .eof 5 1, .plain .rBrace "\x7d" ⟨5, 6, 1⟩]
    endPosition tokens = 3 ∧
      (∃ t rest, tokens[1]? = some t ∧ t.kind ≠ .eof ∧ ahead tokens 1 = t :: rest ∧
        Reached tokens 2 (Grammar.declaration (stopOf tokens) t rest).rest) ∧
      (Grammar.statement (stopOf tokens) (ahead tokens 0)).MovesOn tokens 0 ∧
      ∃ body rest notes, ∃ fits : rest.length + 0 ≤ (ahead tokens 1).length,
        Grammar.loopWithin (stopOf tokens) (·.kind == .rBrace) 2
          (ahead tokens 1) = some (body, rest, notes) ∧
          Grammar.block (stopOf tokens) (ahead tokens 1) =
            (((Step.expect .rBrace .braceAfterBlock rest).map fun _ => body).precede notes).within
              fits := by
  intro tokens
  have hend : endPosition tokens = 3 := by decide
  -- The part on the whole program asks for nothing, so only the other three are taken here.
  obtain ⟨-, hdeclaration, hproduction, -, hblock⟩ := progress tokens
  rw [hend] at hdeclaration hproduction hblock
  exact ⟨hend, hdeclaration 1 (by decide), hproduction _ _ _ .statement 0 (by decide),
    hblock 1 (by decide)⟩

end Treewalk
