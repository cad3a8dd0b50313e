import Treewalk.Proofs.Grammar.Cursor
import Treewalk.Proofs.Grammar.Progress

/-!
# What a cursor sees

A cursor *sees* the tokens from its position up to the first end mark, wherever this mark is and
whether it stands there or is put behind the last token (`Cursor.Sees`). Each thing that a reader
does with the cursor depends on these tokens alone, so it is what a step does with them: a reader
*follows* a step if it has the same value, leaves the same tokens ahead and has recorded the same
diagnostics (`Reader.Follows`). There is a rule for each way in which steps are put together, and
with these each reader follows the production of its name.

Productions that start in front of the same token nest less than thirty deep. So with fuel for
thirty productions for each token, a parser with a cursor comes to an end, and it makes of the
tokens what `Parsed.ofTokens` does (`Parsed.byCursor_eq`).
-/

namespace Treewalk

open Parsed

namespace Parsed

/-- The token that ends a list is the one at the end position, or the mark behind the last one. -/
theorem stopOf_eq (c : Cursor) : stopOf c.tokens = c.tokens[endPosition c.tokens]?.getD c.mark := by
  rw [stopOf, endPosition, List.find?_eq_getElem?_findIdx]
  cases c.tokens[c.tokens.findIdx (·.kind == .eof)]? with
  | some stop => rfl
  | none => rfl

/-- What stands for the end of the tokens is an end mark. -/
theorem kind_stopOf (tokens : List Token) : (stopOf tokens).kind = .eof := by
  unfold stopOf
  split
  · next h => simpa using List.find?_some h
  · split <;> rfl

end Parsed

namespace Cursor

variable {c : Cursor} {tokens rest : List Token} {t : Token}

/-- These tokens are ahead of the cursor, up to the first end mark. -/
structure Sees (c : Cursor) (tokens rest : List Token) : Prop where
  hall : c.tokens = tokens
  hposition : c.position ≤ endPosition tokens
  hahead : ahead tokens c.position = rest

namespace Sees

/-- At the start the tokens ahead are the ones before the first end mark. -/
theorem start (tokens : List Token) : (Cursor.start tokens).Sees tokens (front tokens) :=
  ⟨rfl, Nat.zero_le _, (front_eq_ahead tokens).symm⟩

/-- At the position there is the first token that is ahead, or the one that ends the list. -/
theorem current (h : c.Sees tokens rest) : c.current = rest.head?.getD (stopOf tokens) := by
  obtain ⟨rfl, hposition, rfl⟩ := h
  obtain hlt | heq := Nat.lt_or_eq_of_le hposition
  · obtain ⟨t, rest, hahead, htoken, -⟩ := exists_ahead_eq_cons hlt
    rw [Cursor.current, hahead, htoken]
    rfl
  · have hnil : Parsed.ahead c.tokens c.position = [] := by
      rw [← List.length_eq_zero_iff, length_ahead, heq, Nat.sub_self]
    rw [hnil, Cursor.current, heq, ← stopOf_eq]
    rfl

/-- Whether the cursor is at a kind is read off the first token ahead. -/
theorem isAt (h : c.Sees tokens rest) (kind : Kind) :
    c.isAt kind = ((rest.head?.getD (stopOf tokens)).kind == kind) := by
  rw [Cursor.isAt, h.current]

/-- No token that is ahead is an end mark. -/
theorem exists_token (h : c.Sees tokens (t :: rest)) :
    c.tokens[c.position]? = some t ∧ t.kind ≠ .eof ∧ c.position < endPosition c.tokens := by
  obtain ⟨rfl, hposition, hahead⟩ := h
  have hlt : c.position < endPosition c.tokens := by
    have hlength := congrArg List.length hahead
    rw [length_ahead, List.length_cons] at hlength
    omega
  obtain ⟨u, others, hcons, htoken, hkind⟩ := exists_ahead_eq_cons hlt
  rw [hahead] at hcons
  cases hcons
  exact ⟨htoken, hkind, hlt⟩

/-- A kind of its own is at the cursor if the tokens ahead start with it. -/
theorem isAt_eq_starts (h : c.Sees tokens rest) {kind : Kind} (hkind : kind ≠ .eof) :
    c.isAt kind = Grammar.starts kind rest := by
  rw [h.isAt]
  cases rest with
  | nil =>
    rw [Grammar.starts, beq_eq_false_iff_ne]
    show (stopOf tokens).kind ≠ kind
    rw [kind_stopOf]
    exact hkind.symm
  | cons t rest => rfl

/-- The cursor is at an end mark exactly when no tokens are ahead. -/
theorem isAt_eof (h : c.Sees tokens rest) : c.isAt .eof = rest.isEmpty := by
  rw [h.isAt]
  cases rest with
  | nil => exact beq_iff_eq.2 (kind_stopOf tokens)
  | cons t rest => exact beq_eq_false_iff_ne.2 h.exists_token.2.1

/-- In front of a token, the cursor moves on, and has the token behind it. -/
theorem advance (h : c.Sees tokens (t :: rest)) :
    c.advance.Sees tokens rest ∧ c.advance.previous = t ∧ c.advance.notes = c.notes := by
  obtain ⟨htoken, -, hlt⟩ := h.exists_token
  have hmoved : c.advance = { c with position := c.position + 1 } := by
    rw [Cursor.advance, h.isAt_eof]
    rfl
  obtain ⟨rfl, -, hahead⟩ := h
  rw [hmoved]
  refine ⟨⟨rfl, hlt, ?_⟩, ?_, rfl⟩
  · -- The tokens ahead of the next position are the tail of those ahead of this one.
    show Parsed.ahead c.tokens (c.position + 1) = rest
    rw [Parsed.ahead, ← List.tail_drop, ← Parsed.ahead, hahead, List.tail_cons]
  · show (c.tokens[c.position + 1 - 1]?).getD _ = t
    rw [Nat.add_sub_cancel, htoken]
    rfl

/-- At the end, the cursor stays. -/
theorem advance_end (h : c.Sees tokens []) : c.advance = c := by
  rw [Cursor.advance, h.isAt_eof]
  rfl

/-- Recording a fault changes nothing about what is ahead. -/
theorem record (h : c.Sees tokens rest) (t : Token) (fault : SyntaxFault) :
    (c.record t fault).Sees tokens rest := ⟨h.hall, h.hposition, h.hahead⟩

end Sees

end Cursor

namespace Step

variable {α : Type} {n k : Nat}

/-- The value, if there is one. -/
def value? : Step α n k → Option α
  | done value _ _ _ => some value
  | stuck _ _ _ _ => none

/-- Mapping a step is continuing it with a step that is done at once. -/
theorem map_eq_bind {β : Type} (s : Step α n k) (f : α → β) :
    s.map f = s.bind fun a rest _ => pure (f a) rest := by
  cases s with
  | done a rest notes fits => simp [map, bind, pure]
  | stuck fault rest notes fits => rfl

/-- The same with a note put behind the mapped step. -/
theorem note_map_eq_bind {β : Type} (s : Step α n k) (f : α → β) (d : Diagnostic) :
    (s.map f).note d = s.bind fun a rest _ => (pure (f a) rest).note d := by
  cases s <;> rfl

/-- What is done with a value does not matter to what is noted in front of it. -/
theorem map_within_precede {β γ : Type} {j m : Nat} (s : Step α n k) (f : α → β) (g : β → γ)
    (notes : List Diagnostic) (hfits : n + j ≤ m) :
    (((s.map f).precede notes).within hfits).map g =
      ((s.map fun a => g (f a)).precede notes).within hfits := by
  cases s <;> rfl

/-- All that is recorded: the notes, and the fault if the grammar is stuck. -/
def recorded (stop : Token) : Step α n k → List Diagnostic
  | done _ _ notes _ => notes
  | stuck fault rest notes _ => notes ++ [Grammar.blame stop rest fault]

end Step

namespace Reader

open Grammar

variable {α β : Type} {n k j : Nat} {tokens rest : List Token} {t : Token} {kind : Kind}

/-- With these tokens ahead, the reader does with its cursor what the step says: it comes to an end
    in front of what the step leaves, has its value if it has one, and has recorded what the step
    notes. -/
def Follows (tokens : List Token) (r : Reader (Option α)) (s : Step α n k) (rest : List Token) :
    Prop :=
  ∀ c : Cursor, c.Sees tokens rest →
    ∃ c', r.run c = some (s.value?, c') ∧ c'.Sees tokens s.rest ∧
      c'.notes = c.notes ++ s.recorded (stopOf tokens)

variable {r : Reader (Option α)} {s : Step α n k}

/-- A reader that returns at once follows the step that is done at once. -/
theorem follows_pure (a : α) (rest : List Token) :
    Follows tokens (pure (some a)) (Step.pure a rest) rest :=
  fun c hc => ⟨c, rfl, hc, (List.append_nil _).symm⟩

/-- A reader that refuses the current token follows the step that fails there. -/
theorem follows_refuse (fault : SyntaxFault) (rest : List Token) :
    Follows tokens (refuse (rest.head?.getD (stopOf tokens)) fault)
      (Step.fail fault rest : Step α rest.length k)
      rest :=
  fun c hc => ⟨c.record _ fault, rfl, hc.record .., rfl⟩

/-- A reader that gives up if the one in front of it has is a step that goes on behind a value. -/
theorem follows_bind {next : Option α → Reader (Option β)}
    {step : α → (rest : List Token) → rest.length + k ≤ n → Step β rest.length j}
    (h : Follows tokens r s rest)
    (hnext : ∀ a rest' fits, Follows tokens (next (some a)) (step a rest' fits) rest')
    (hnone : next none = pure none := by rfl) : Follows tokens (r >>= next) (s.bind step) rest := by
  intro c hc
  obtain ⟨c', hrun, hsees, hnotes⟩ := h c hc
  rw [StateT.run_bind, hrun]
  -- A stuck step leaves the reader with nothing, and `hnone` says that what comes next hands that
  -- on.
  cases s with
  | done a rest' notes fits =>
    obtain ⟨c'', hrun', hsees', hnotes'⟩ := hnext a rest' fits c' hsees
    refine ⟨c'', ?_⟩
    show (next (some a)).run c' = _ ∧ _
    rw [hrun', Step.bind, hnotes', hnotes]
    cases hstep : step a rest' fits with
    | done b rest'' notes' fits' =>
      rw [hstep] at hsees'
      exact ⟨rfl, hsees', List.append_assoc ..⟩
    | stuck fault rest'' notes' fits' =>
      rw [hstep] at hsees'
      refine ⟨rfl, hsees', ?_⟩
      simp [Step.recorded]
  | stuck fault rest' notes fits =>
    refine ⟨c', ?_, hsees, hnotes⟩
    show (next none).run c' = _
    rw [hnone]
    rfl

/-- A reader that maps what it read follows the mapped step. -/
theorem follows_map {next : Option α → Reader (Option β)} (f : α → β) (h : Follows tokens r s rest)
    (hnext : ∀ a, next (some a) = pure (some (f a)) := by exact fun _ => rfl)
    (hnone : next none = pure none := by rfl) : Follows tokens (r >>= next) (s.map f) rest := by
  rw [Step.map_eq_bind]
  refine follows_bind h (fun a rest' _ => ?_) hnone
  rw [hnext]
  exact follows_pure (f a) rest'

/-- A fault that is recorded behind a value leaves the value as it is. -/
theorem follows_note {next : Option α → Reader (Option β)} (f : α → β) (t : Token)
    (fault : SyntaxFault) (h : Follows tokens r s rest) (hnext : ∀ a, next (some a) = do
      record t fault
      return some (f a))
    (hnone : next none = pure none := by rfl) :
    Follows tokens (r >>= next) ((s.map f).note (.syntactic t fault)) rest := by
  rw [Step.note_map_eq_bind]
  refine follows_bind h (fun a rest' _ c hc => ?_) hnone
  rw [hnext]
  exact ⟨c.record t fault, rfl, hc.record t fault, rfl⟩

/-- Following does not depend on how many tokens a step is known to read. -/
theorem Follows.maybe (h : Follows tokens r s rest) : Follows tokens r s.maybe rest := by
  cases s <;> exact h

/-- The same for a step that is only known to read one token. -/
theorem Follows.once {s : Step α n (k + 1)} (h : Follows tokens r s rest) :
    Follows tokens r s.once rest := by
  cases s <;> exact h

/-- A reader that follows a step with an empty list in front follows the step itself. -/
theorem Follows.of_map_nil_append {s : Step (List α) n k} {r : Reader (Option (List α))}
    (h : Follows tokens r (s.map ([] ++ ·)) rest) : Follows tokens r s rest := by
  cases s <;> exact h

/-- A reader follows a step also among more tokens. -/
theorem Follows.within {m : Nat} (h : Follows tokens r s rest) (hfits : n + j ≤ m) :
    Follows tokens r (s.within hfits) rest := by
  cases s <;> exact h

/-! ### Reading tokens -/

/-- A reader that looks at the current token goes on with the first one ahead. -/
theorem follows_look {next : Token → Reader (Option α)}
    (h : Follows tokens (next t) s (t :: rest)) :
    Follows tokens (look Cursor.current >>= next) s (t :: rest) := by
  intro c hc
  obtain rfl : c.current = t := hc.current
  exact h c hc

/-- A reader that looks at the current token behind the last one goes on with the end mark. -/
theorem follows_look_end {next : Token → Reader (Option α)}
    (h : Follows tokens (next (stopOf tokens)) s []) :
    Follows tokens (look Cursor.current >>= next) s [] := by
  intro c hc
  have hstop : c.current = stopOf tokens := hc.current
  rw [← hstop] at h
  exact h c hc

/-- A list does not start with a kind that its first token does not have. -/
theorem starts_eq_false (ht : t.kind ≠ kind) : starts kind (t :: rest) = false :=
  beq_eq_false_iff_ne.2 ht

/-- A reader that asks for the kind of the current token goes on with whether the tokens start with
    it. -/
theorem follows_isAt {next : Bool → Reader (Option α)}
    (h : Follows tokens (next (starts kind rest)) s rest)
    (hkind : kind ≠ .eof := by decide) : Follows tokens (look (·.isAt kind) >>= next) s rest := by
  intro c hc
  rw [← hc.isAt_eq_starts hkind] at h
  exact h c hc

/-- A reader that advances goes on with the token it passes, and its step stands behind it. -/
theorem follows_advance {next : Token → Reader (Option α)} {s : Step α rest.length k}
    (h : Follows tokens (next t) s rest) :
    Follows tokens (advance >>= next) (s.behind t) (t :: rest) := by
  intro c hc
  obtain ⟨hsees, hprevious, hnotes⟩ := hc.advance
  have hfits : rest.length + 1 ≤ (t :: rest).length := Nat.le_refl _
  obtain ⟨c', hrun, hsees', hnotes'⟩ := h.within hfits c.advance hsees
  rw [hnotes] at hnotes'
  rw [← hprevious] at hrun
  exact ⟨c', hrun, hsees', hnotes'⟩

/-- A reader that makes a value of the token it passes follows the step that does. -/
theorem follows_read (f : Token → α) (t : Token) (rest : List Token) :
    Follows tokens (do return some (f (← advance))) ((Step.pure (f t) rest).behind t)
      (t :: rest) := by
  apply follows_advance
  exact follows_pure (f t) rest

/-- A reader that takes a token of a kind goes on with that token where it is of the kind. -/
theorem follows_eat {next : Option Token → Reader (Option α)} {s : Step α rest.length k}
    (ht : t.kind = kind)
    (h : Follows tokens (next (some t)) s rest) (hkind : kind ≠ .eof := by decide) :
    Follows tokens (eat kind >>= next) (s.behind t) (t :: rest) := by
  rw [eat, bind_assoc]
  refine follows_isAt ?_ hkind
  rw [starts, if_pos (beq_iff_eq.2 ht), bind_assoc]
  apply follows_advance
  rw [pure_bind]
  exact h

/-- A reader that takes a token of a kind goes on with none where it is not of the kind. -/
theorem follows_eat_none {next : Option Token → Reader (Option α)}
    (hrest : starts kind rest = false)
    (h : Follows tokens (next none) s rest) (hkind : kind ≠ .eof := by decide) :
    Follows tokens (eat kind >>= next) s rest := by
  rw [eat, bind_assoc]
  refine follows_isAt ?_ hkind
  rw [hrest, if_neg Bool.false_ne_true, pure_bind]
  exact h

/-- A reader that expects a kind takes the token that has it. -/
theorem follows_expected (ht : t.kind = kind) (fault : SyntaxFault) (rest : List Token)
    (hkind : kind ≠ .eof := by decide) :
    Follows tokens (expect kind fault) ((Step.pure t rest).behind t) (t :: rest) := by
  rw [expect]
  refine follows_isAt ?_ hkind
  rw [starts, if_pos (beq_iff_eq.2 ht)]
  exact follows_read (fun t => t) t rest

/-- An expected token is read, or the reader gives up in front of what is there instead. -/
theorem follows_expect (kind : Kind) (fault : SyntaxFault) (rest : List Token)
    (hkind : kind ≠ .eof := by decide) :
    Follows tokens (expect kind fault) (Step.expect kind fault rest) rest := by
  cases rest with
  -- Behind the last token a reader sees the end mark, which is of no kind that is ever expected.
  | nil =>
    rw [expect, Step.expect]
    refine follows_isAt ?_ hkind
    rw [starts, if_neg Bool.false_ne_true]
    apply follows_look_end
    exact follows_refuse fault []
  | cons t rest =>
    rw [Step.expect]
    by_cases ht : t.kind = kind
    · rw [if_pos ht]
      exact follows_expected ht fault rest hkind
    · rw [expect, if_neg ht]
      refine follows_isAt ?_ hkind
      rw [starts_eq_false ht, if_neg Bool.false_ne_true]
      apply follows_look
      exact follows_refuse fault (t :: rest)

/-! ## Expressions -/

/-- A reader that assigns what it read follows the step that does. -/
theorem follows_assignTo {r : Reader (Option Expr)} {value : Step Expr n k}
    {next : Option Expr → Reader (Option Expr)} (target : Expr) (equals : Token)
    (h : Follows tokens r value rest)
    (hnext : ∀ v, next (some v) = assignTo target equals v := by exact fun _ => rfl)
    (hnone : next none = pure none := by rfl) :
    Follows tokens (r >>= next) (Grammar.assignTo target equals value) rest := by
  cases target with
  | name token => exact follows_map _ h hnext hnone
  | index object position bracket => exact follows_map _ h hnext hnone
  | _ => exact follows_note _ equals .assignmentTarget h hnext hnone

mutual

/-- Reading an expression follows the production for expressions, given enough fuel. -/
theorem follows_expression (tokens rest : List Token) {fuel : Nat}
    (hfuel : 20 * rest.length + 19 ≤ fuel) :
    Follows tokens (expression fuel) (Grammar.expression rest) rest := by
  cases fuel with
  | zero => omega
  | succ fuel =>
    have hdepth := Level.or.depth_le
    rw [expression, Grammar.expression]
    exact follows_bind (follows_chain tokens .or rest (by omega)) fun target rest' _ =>
      follows_assignment tokens target rest' (by omega)
termination_by fuel

/-- Reading the value of an assignment follows its production. -/
theorem follows_assignment (tokens : List Token) (target : Expr) (rest : List Token) {fuel : Nat}
    (hfuel : 20 * rest.length + 1 ≤ fuel) :
    Follows tokens (assignment fuel target) (Grammar.assignment target rest) rest := by
  cases fuel with
  | zero => omega
  | succ fuel =>
    rw [assignment]
    cases rest with
    | nil =>
      rw [Grammar.assignment]
      apply follows_eat_none rfl
      exact follows_pure target []
    | cons t rest =>
      rw [List.length_cons] at hfuel
      rw [Grammar.assignment]
      by_cases ht : t.kind = .eq
      · -- It makes no difference on which side of the equals sign the value is assigned.
        have hbehind : Grammar.assignTo target t ((Grammar.expression rest).behind t) =
            (Grammar.assignTo target t (Grammar.expression rest)).behind t := by
          cases target <;> cases Grammar.expression rest <;> rfl
        rw [if_pos ht, hbehind]
        apply Follows.maybe
        apply follows_eat ht
        exact follows_assignTo target t (follows_expression tokens rest (by omega))
      · rw [if_neg ht]
        apply follows_eat_none (starts_eq_false ht)
        exact follows_pure target _
termination_by fuel

/-- Reading a chain of operands of a level follows the production for chains. -/
theorem follows_chain (tokens : List Token) (l : Level) (rest : List Token) {fuel : Nat}
    (hfuel : 20 * rest.length + 6 + 2 * l.depth ≤ fuel) :
    Follows tokens (chain fuel l) (Grammar.chain l rest) rest := by
  cases fuel with
  | zero => omega
  | succ fuel =>
    rw [chain, Grammar.chain]
    exact follows_bind (follows_operand tokens l rest (by omega)) fun left rest' _ =>
      follows_chainMore tokens l left rest' (by omega)
termination_by fuel

/-- Reading an operand of a level follows the production for operands. -/
theorem follows_operand (tokens : List Token) (l : Level) (rest : List Token) {fuel : Nat}
    (hfuel : 20 * rest.length + 5 + 2 * l.depth ≤ fuel) :
    Follows tokens (operand fuel l) (Grammar.operand l rest) rest := by
  cases fuel with
  | zero => omega
  | succ fuel =>
    rw [Grammar.operand]
    split
    · -- No token is read on the way down to the next level, so the fuel is paid by the depth.
      next tighter htighter =>
      have hdepth := Level.depth_of_tighter? htighter
      rw [operand, htighter]
      exact follows_chain tokens tighter rest (by omega)
    · next htighter =>
      rw [operand, htighter]
      exact follows_unary tokens rest (by omega)
termination_by fuel

/-- Reading the rest of a chain follows its production. -/
theorem follows_chainMore (tokens : List Token) (l : Level) (left : Expr) (rest : List Token)
    {fuel : Nat} (hfuel : 20 * rest.length + 1 ≤ fuel) :
    Follows tokens (chainMore fuel l left) (Grammar.chainMore l left rest) rest := by
  cases fuel with
  | zero => omega
  | succ fuel =>
    have hdepth := l.depth_le
    rw [chainMore]
    cases rest with
    | nil =>
      rw [Grammar.chainMore]
      apply follows_look_end
      rw [kind_stopOf]
      exact follows_pure left []
    | cons t rest =>
      rw [List.length_cons] at hfuel
      apply follows_look
      rw [Grammar.chainMore]
      cases hc : Connective.atLevel? l t.kind with
      | some c =>
        -- One token is read here, and the fuel that it pays for covers a whole operand.
        apply Follows.maybe
        apply follows_advance
        refine follows_bind (follows_operand tokens l rest (by omega)) fun right rest' _ => ?_
        exact follows_chainMore tokens l (c.join left right t.span) rest' (by omega)
      | none => exact follows_pure left _
termination_by fuel

/-- Reading a unary expression follows its production. -/
theorem follows_unary (tokens rest : List Token) {fuel : Nat}
    (hfuel : 20 * rest.length + 4 ≤ fuel) :
    Follows tokens (unary fuel) (Grammar.unary rest) rest := by
  cases fuel with
  | zero => omega
  | succ fuel =>
    rw [unary]
    -- The end mark is no operator, so behind the last token the reader goes on to a call, as the
    -- step does.
    cases rest with
    | nil =>
      rw [Grammar.unary]
      apply follows_look_end
      rw [kind_stopOf]
      exact follows_call tokens [] (by omega)
    | cons t rest =>
      have hlength : (t :: rest).length = rest.length + 1 := rfl
      apply follows_look
      rw [Grammar.unary]
      cases hop : unaryOp? t.kind with
      | some op =>
        apply Follows.once
        apply follows_advance
        exact follows_map _ (follows_unary tokens rest (by omega))
      | none => exact follows_call tokens (t :: rest) (by omega)
termination_by fuel

/-- Reading a call follows its production. -/
theorem follows_call (tokens rest : List Token) {fuel : Nat}
    (hfuel : 20 * rest.length + 3 ≤ fuel) :
    Follows tokens (call fuel) (Grammar.call rest) rest := by
  cases fuel with
  | zero => omega
  | succ fuel =>
    rw [call, Grammar.call]
    exact follows_bind (follows_primary tokens rest (by omega)) fun callee rest' _ =>
      follows_callMore tokens callee rest' (by omega)
termination_by fuel

/-- Reading what follows a callee follows its production. -/
theorem follows_callMore (tokens : List Token) (callee : Expr) (rest : List Token) {fuel : Nat}
    (hfuel : 20 * rest.length + 1 ≤ fuel) :
    Follows tokens (callMore fuel callee) (Grammar.callMore callee rest) rest := by
  cases fuel with
  | zero => omega
  | succ fuel =>
    rw [callMore]
    cases rest with
    | nil =>
      rw [Grammar.callMore]
      apply follows_eat_none rfl
      apply follows_eat_none rfl
      exact follows_pure callee []
    | cons t rest =>
      rw [List.length_cons] at hfuel
      rw [Grammar.callMore]
      -- The reader tries the two brackets one after the other where the production asks for the
      -- kind once.
      by_cases hparen : t.kind = .lParen
      · rw [if_pos hparen]
        apply Follows.maybe
        apply follows_eat hparen
        refine follows_bind (follows_arguments tokens (by decide) rest (by omega))
          fun args rest₁ _ => ?_
        refine follows_bind (follows_expect _ .parenAfterArguments rest₁) fun paren rest₂ _ => ?_
        exact follows_callMore tokens (.call callee args paren) rest₂ (by omega)
      · rw [if_neg hparen]
        apply follows_eat_none (starts_eq_false hparen)
        by_cases hbracket : t.kind = .lBracket
        · rw [if_pos hbracket]
          apply Follows.maybe
          apply follows_eat hbracket
          refine follows_bind (follows_expression tokens rest (by omega)) fun position rest₁ _ => ?_
          refine follows_bind (follows_expect _ .bracketAfterIndex rest₁) fun bracket rest₂ _ => ?_
          exact follows_callMore tokens (.index callee position bracket) rest₂ (by omega)
        · rw [if_neg hbracket]
          apply follows_eat_none (starts_eq_false hbracket)
          exact follows_pure callee _
termination_by fuel

/-- Reading a primary expression follows its production. -/
theorem follows_primary (tokens rest : List Token) {fuel : Nat}
    (hfuel : 20 * rest.length + 2 ≤ fuel) :
    Follows tokens (primary fuel) (Grammar.primary rest) rest := by
  cases fuel with
  | zero => omega
  | succ fuel =>
    rw [primary]
    cases rest with
    | nil =>
      have hliteral : literal? (stopOf tokens) = none := by rw [literal?, kind_stopOf]
      rw [Grammar.primary]
      apply follows_look_end
      rw [hliteral, kind_stopOf]
      exact follows_refuse .expression []
    | cons t rest =>
      rw [List.length_cons] at hfuel
      apply follows_look
      rw [Grammar.primary]
      -- The order of the cases is that of the reader: literals come first, then names and the two
      -- brackets.
      cases hliteral : literal? t with
      | some value => exact follows_advance (follows_pure (Expr.literal value) rest)
      | none =>
        cases hkind : t.kind with
        | identifier => exact follows_read Expr.name t rest
        | lParen =>
          apply Follows.once
          apply follows_advance
          refine follows_bind (follows_expression tokens rest (by omega)) fun inner rest' _ => ?_
          exact follows_map _ (follows_expect .rParen .parenAfterExpression rest')
        | lBracket =>
          apply Follows.once
          apply follows_advance
          refine follows_bind (follows_arguments tokens (by decide) rest (by omega))
            fun elements rest' _ => ?_
          exact follows_map _ (follows_expect .rBracket .bracketAfterElements rest')
        | _ => exact follows_refuse .expression (t :: rest)
termination_by fuel

/-- Reading the arguments up to a closing bracket follows their production. -/
theorem follows_arguments (tokens : List Token) {close : Kind} (hclose : close ≠ .eof)
    (rest : List Token) {fuel : Nat} (hfuel : 20 * rest.length + 20 ≤ fuel) :
    Follows tokens (arguments fuel close) (Grammar.arguments close rest) rest := by
  cases fuel with
  | zero => omega
  | succ fuel =>
    rw [arguments, Grammar.arguments]
    -- The closing bracket is only looked at here, and whoever asked for arguments reads it.
    refine follows_isAt ?_ hclose
    by_cases hstarts : starts close rest
    · rw [if_pos hstarts, if_pos hstarts]
      exact follows_pure [] rest
    · rw [if_neg hstarts, if_neg hstarts]
      apply Follows.maybe
      refine follows_bind (follows_expression tokens rest (by omega)) fun first rest' _ => ?_
      exact follows_map _ (follows_argumentsMore tokens rest' (by omega))
termination_by fuel

/-- Reading the arguments behind the first one follows their production. -/
theorem follows_argumentsMore (tokens rest : List Token) {fuel : Nat}
    (hfuel : 20 * rest.length + 1 ≤ fuel) :
    Follows tokens (argumentsMore fuel) (Grammar.argumentsMore rest) rest := by
  cases fuel with
  | zero => omega
  | succ fuel =>
    rw [argumentsMore]
    cases rest with
    | nil =>
      rw [Grammar.argumentsMore]
      apply follows_eat_none rfl
      exact follows_pure [] []
    | cons t rest =>
      rw [List.length_cons] at hfuel
      rw [Grammar.argumentsMore]
      by_cases ht : t.kind = .comma
      · -- The comma pays for the argument behind it and for the ones that follow.
        rw [if_pos ht]
        apply Follows.maybe
        apply follows_eat ht
        refine follows_bind (follows_expression tokens rest (by omega)) fun next rest' _ => ?_
        exact follows_map _ (follows_argumentsMore tokens rest' (by omega))
      · rw [if_neg ht]
        apply follows_eat_none (starts_eq_false ht)
        exact follows_pure [] _
termination_by fuel

end

/-! ## Parts of statements -/

/-- Reading an expression and its semicolon follows their production. -/
theorem follows_terminated (tokens : List Token) (fault : SyntaxFault) (rest : List Token)
    {fuel : Nat} (hfuel : 20 * rest.length + 19 ≤ fuel) :
    Follows tokens (terminated fuel fault) (Grammar.terminated fault rest) rest := by
  rw [terminated, Grammar.terminated]
  apply Follows.once
  refine follows_bind (follows_expression tokens rest (by omega)) fun value rest' _ => ?_
  exact follows_map _ (follows_expect .semi fault rest')

/-- Reading an initial value follows its production. -/
theorem follows_initializer (tokens rest : List Token) {fuel : Nat}
    (hfuel : 20 * rest.length ≤ fuel) :
    Follows tokens (initializer fuel) (Grammar.initializer rest) rest := by
  rw [initializer]
  cases rest with
  | nil =>
    apply follows_eat_none rfl
    exact follows_pure none []
  | cons t rest =>
    rw [List.length_cons] at hfuel
    rw [Grammar.initializer]
    -- Without an equals sign there is no initial value, and nothing is read.
    by_cases ht : t.kind = .eq
    · rw [if_pos ht]
      apply Follows.maybe
      apply follows_eat ht
      exact follows_map _ (follows_expression tokens rest (by omega))
    · rw [if_neg ht]
      apply follows_eat_none (starts_eq_false ht)
      exact follows_pure none _

/-- Reading a declaration of a variable follows its production. -/
theorem follows_variableDeclaration (tokens rest : List Token) {fuel : Nat}
    (hfuel : 20 * rest.length ≤ fuel) :
    Follows tokens (variableDeclaration fuel) (Grammar.variableDeclaration rest) rest := by
  rw [variableDeclaration, Grammar.variableDeclaration]
  apply Follows.once
  refine follows_bind (follows_expect .identifier .variableName rest) fun name rest₁ _ => ?_
  refine follows_bind (follows_initializer tokens rest₁ (by omega)) fun init rest₂ _ => ?_
  exact follows_map _ (follows_expect .semi .semiAfterVariable rest₂)

/-- Reading the parameters behind the first one follows their production. -/
theorem follows_parametersMore (tokens rest : List Token) {fuel : Nat}
    (hfuel : rest.length + 1 ≤ fuel) :
    Follows tokens (parametersMore fuel) (Grammar.parametersMore rest) rest := by
  cases fuel with
  | zero => omega
  | succ fuel =>
    rw [parametersMore]
    cases rest with
    | nil =>
      rw [Grammar.parametersMore]
      apply follows_eat_none rfl
      exact follows_pure [] []
    | cons t rest =>
      rw [List.length_cons] at hfuel
      rw [Grammar.parametersMore]
      by_cases ht : t.kind = .comma
      · rw [if_pos ht]
        -- Parameters hold no expressions, so one unit of fuel a token is enough for them.
        apply Follows.maybe
        apply follows_eat ht
        refine follows_bind (follows_expect .identifier .parameterName rest) fun next rest' _ => ?_
        exact follows_map _ (follows_parametersMore tokens rest' (by omega))
      · rw [if_neg ht]
        apply follows_eat_none (starts_eq_false ht)
        exact follows_pure [] _
termination_by fuel

/-- Reading parameters follows their production. -/
theorem follows_parameters (tokens rest : List Token) {fuel : Nat} (hfuel : rest.length ≤ fuel) :
    Follows tokens (parameters fuel) (Grammar.parameters rest) rest := by
  rw [parameters, Grammar.parameters]
  refine follows_isAt ?_
  by_cases hstarts : starts .rParen rest
  · rw [if_pos hstarts, if_pos hstarts]
    exact follows_pure [] rest
  · rw [if_neg hstarts, if_neg hstarts]
    apply Follows.maybe
    refine follows_bind (follows_expect .identifier .parameterName rest) fun first rest' _ => ?_
    exact follows_map _ (follows_parametersMore tokens rest' (by omega))

/-- Reading the head of a function follows its production. -/
theorem follows_signature (tokens rest : List Token) {fuel : Nat} (hfuel : rest.length ≤ fuel) :
    Follows tokens (signature fuel) (Grammar.signature rest) rest := by
  rw [signature, Grammar.signature]
  apply Follows.once
  refine follows_bind (follows_expect .identifier .functionName rest) fun name rest₁ _ => ?_
  refine follows_bind (follows_expect .lParen .parenAfterFunctionName rest₁) fun _ rest₂ _ => ?_
  refine follows_bind (follows_parameters tokens rest₂ (by omega)) fun params rest₃ _ => ?_
  refine follows_bind (follows_expect .rParen .parenAfterParameters rest₃) fun _ rest₄ _ => ?_
  exact follows_map _ (follows_expect .lBrace .braceBeforeBody rest₄)

/-- Reading a condition in brackets follows its production. -/
theorem follows_condition (tokens : List Token) (opening closing : SyntaxFault) (rest : List Token)
    {fuel : Nat} (hfuel : 20 * rest.length ≤ fuel) :
    Follows tokens (condition fuel opening closing)
      (Grammar.condition opening closing rest) rest := by
  rw [condition, Grammar.condition]
  apply Follows.once
  refine follows_bind (follows_expect .lParen opening rest) fun _ rest₁ _ => ?_
  refine follows_bind (follows_expression tokens rest₁ (by omega)) fun value rest₂ _ => ?_
  exact follows_map _ (follows_expect .rParen closing rest₂)

/-- Reading a return follows its production. -/
theorem follows_result (tokens : List Token) (keyword : Token) (rest : List Token) {fuel : Nat}
    (hfuel : 20 * rest.length + 19 ≤ fuel) :
    Follows tokens (result fuel keyword) (Grammar.result keyword rest) rest := by
  rw [result]
  refine follows_isAt ?_
  cases rest with
  | nil => exact follows_map _ (follows_terminated tokens .semiAfterReturn [] (by omega))
  | cons t rest =>
    have hlength : (t :: rest).length = rest.length + 1 := rfl
    rw [Grammar.result]
    -- A semicolon right behind the keyword is only looked at, and then expected like any other.
    by_cases ht : t.kind = .semi
    · rw [starts, if_pos (beq_iff_eq.2 ht), if_pos ht]
      exact follows_map (fun _ => Stmt.result keyword none)
        (follows_expected ht .semiAfterReturn rest)
    · rw [starts_eq_false ht, if_neg Bool.false_ne_true, if_neg ht]
      exact follows_map _ (follows_terminated tokens .semiAfterReturn (t :: rest) (by omega))

/-! ## Statements -/

/-- Looking at the cursor does not move it. -/
theorem run_look {γ : Type} (f : Cursor → γ) (next : γ → Reader β) (c : Cursor) :
    (look f >>= next).run c = (next (f c)).run c := rfl

/-- Where the cursor is, reading goes on, or it does where skipping goes from one position further
    on. -/
theorem run_skip (fuel : Nat) (c : Cursor) :
    (skip (fuel + 1)).run c =
      if c.isAt .eof = true ∨ c.previous.kind = .semi ∨ c.current.kind.startsStatement = true then
        some ((), c)
      else (skip fuel).run c.advance := by
  rw [skip]
  -- The three reasons to stop are asked for one after the other, each only when the ones before did
  -- not hold.
  by_cases hend : c.isAt .eof = true
  · rw [run_look, if_pos hend, if_pos (.inl hend)]
    rfl
  · by_cases hsemi : c.previous.kind = .semi
    · rw [run_look, if_neg hend, run_look, if_pos hsemi, if_pos (.inr (.inl hsemi))]
      rfl
    · by_cases hstarts : c.current.kind.startsStatement = true
      · rw [run_look, if_neg hend, run_look, if_neg hsemi, run_look, if_pos hstarts,
          if_pos (.inr (.inr hstarts))]
        rfl
      · rw [run_look, if_neg hend, run_look, if_neg hsemi, run_look, if_neg hstarts,
          if_neg (by simp [hend, hsemi, hstarts])]
        rfl

/-- From behind a token on, the cursor goes on to where reading goes on. -/
theorem exists_run_skip {c : Cursor} {rest : List Token} (hc : c.Sees tokens rest) {fuel : Nat}
    (hfuel : rest.length + 1 ≤ fuel) :
    ∃ c', (skip fuel).run c = some ((), c') ∧ c'.Sees tokens (resumeBehind c.previous rest) ∧
      c'.notes = c.notes := by
  induction fuel generalizing c rest with
  | zero => omega
  | succ fuel ih =>
    rw [run_skip]
    cases rest with
    | nil =>
      rw [if_pos (.inl hc.isAt_eof)]
      exact ⟨c, rfl, hc, rfl⟩
    | cons t rest =>
      have hcurrent : c.current = t := hc.current
      have hend : ¬c.isAt .eof = true := by
        rw [hc.isAt_eof]
        exact Bool.false_ne_true
      rw [resumeBehind, hcurrent]
      by_cases hstops : c.previous.kind = .semi ∨ t.kind.startsStatement = true
      · rw [if_pos (.inr hstops), if_pos hstops]
        exact ⟨c, rfl, hc, rfl⟩
      · obtain ⟨hsees, hprevious, hnotes⟩ := hc.advance
        -- Behind the token that is passed it is the previous one, as `resumeBehind` has it.
        rw [if_neg (not_or.2 ⟨hend, hstops⟩), if_neg hstops, ← hprevious, ← hnotes]
        exact ih hsees (Nat.le_of_succ_le_succ hfuel)

/-- Synchronizing leaves the tokens that are resumed from, and writes no note. -/
theorem exists_run_synchronize {c : Cursor} {rest : List Token} (hc : c.Sees tokens rest)
    {fuel : Nat} (hfuel : rest.length + 1 ≤ fuel) :
    ∃ c', (synchronize fuel).run c = some ((), c') ∧ c'.Sees tokens (resume rest) ∧
      c'.notes = c.notes := by
  show ∃ c', (skip fuel).run c.advance = some ((), c') ∧ _
  cases rest with
  -- The cursor stays, behind whatever was read last. Nothing is left, so it does not matter what
  -- that was.
  | nil =>
    rw [hc.advance_end]
    exact exists_run_skip hc hfuel
  | cons t rest =>
    obtain ⟨hsees, hprevious, hnotes⟩ := hc.advance
    rw [resume, ← hprevious, ← hnotes]
    exact exists_run_skip hsees (Nat.le_of_succ_le hfuel)

/-- With these tokens ahead, a declaration is read or recovered from. -/
def Recovers (tokens : List Token) (r : Reader (Option Stmt)) {n : Nat} (recovered : Recovered n)
    (rest : List Token) : Prop :=
  ∀ c : Cursor, c.Sees tokens rest →
    ∃ c', r.run c = some (recovered.statement?, c') ∧ c'.Sees tokens recovered.rest ∧
      c'.notes = c.notes ++ recovered.notes

/-- A reader that synchronizes when it is stuck recovers as the production for declarations does. -/
theorem recovers_recover {r : Reader (Option Stmt)} {s : Step Stmt n 1}
    {next : Option Stmt → Reader (Option Stmt)}
    {fuel : Nat} (hfuel : n + 1 ≤ fuel) (hn : 0 < n) (h : Follows tokens r s rest)
    (hnext : ∀ s, next (some s) = pure (some s) := by exact fun _ => rfl)
    (hnone : next none = (synchronize fuel >>= fun _ => pure none) := by rfl) :
    Recovers tokens (r >>= next) (recover (stopOf tokens) hn s) rest := by
  intro c hc
  obtain ⟨c', hrun, hsees, hnotes⟩ := h c hc
  rw [StateT.run_bind, hrun]
  cases s with
  | done statement rest' notes fits =>
    refine ⟨c', ?_, hsees, hnotes⟩
    show (next (some statement)).run c' = _
    rw [hnext]
    rfl
  | stuck fault rest' notes fits =>
    -- The step was stuck at some of its tokens, so the fuel for all of them is enough to skip on
    -- from there.
    have henough : rest'.length + 1 ≤ fuel := Nat.le_trans (Nat.succ_le_succ fits) hfuel
    obtain ⟨c'', hrun', hsees', hnotes'⟩ := exists_run_synchronize hsees henough
    refine ⟨c'', ?_, hsees', hnotes'.trans hnotes⟩
    show (next none).run c' = _
    rw [hnone, StateT.run_bind, hrun']
    rfl

/-- What is read behind a declaration is put behind what has been recorded of it. -/
theorem Recovers.bind {r : Reader (Option Stmt)} {m : Nat} {recovered : Recovered m}
    {next : Option Stmt → Reader (Option α)} (h : Recovers tokens r recovered rest)
    (hnext : Follows tokens (next recovered.statement?) s recovered.rest) (hfits : n + j ≤ m) :
    Follows tokens (r >>= next) ((s.precede recovered.notes).within hfits) rest := by
  intro c hc
  obtain ⟨c', hrun, hsees, hnotes⟩ := h c hc
  obtain ⟨c'', hrun', hsees', hnotes'⟩ := hnext c' hsees
  rw [StateT.run_bind, hrun]
  refine ⟨c'', ?_⟩
  show (next recovered.statement?).run c' = _ ∧ _
  rw [hrun', hnotes', hnotes]
  -- The notes of the recovery come first, then those of the step, whether it is done or stuck.
  cases s with
  | done value rest' notes fits => exact ⟨rfl, hsees', List.append_assoc ..⟩
  | stuck fault rest' notes fits =>
    exact ⟨rfl, hsees', by simp [Step.recorded, Step.within, Step.precede]⟩

/-- A block ends at its brace or at the end, and the reader asks for both at once. -/
theorem follows_closes {next : Bool → Reader (Option α)}
    (h : Follows tokens (next (starts .rBrace rest || rest.isEmpty)) s rest) :
    Follows tokens (look (fun c => c.isAt .rBrace || c.isAt .eof) >>= next) s rest := by
  intro c hc
  have hbrace : c.isAt .rBrace = starts .rBrace rest := hc.isAt_eq_starts (by decide)
  rw [← hbrace, ← hc.isAt_eof] at h
  exact h c hc

mutual

/-- Reading a declaration recovers as its production does. -/
theorem recovers_declaration (tokens : List Token) (t : Token) (rest : List Token) {fuel : Nat}
    (hfuel : 30 * rest.length + 52 ≤ fuel) :
    Recovers tokens (declaration fuel) (Grammar.declaration (stopOf tokens) t rest)
      (t :: rest) := by
  cases fuel with
  | zero => omega
  | succ fuel =>
    have hfits : (t :: rest).length + 1 ≤ fuel := by
      rw [List.length_cons]
      omega
    rw [declaration, Grammar.declaration]
    exact recovers_recover hfits _ (follows_declared tokens t rest (by omega))
termination_by fuel

/-- Reading a declaration without recovery follows its production. -/
theorem follows_declared (tokens : List Token) (t : Token) (rest : List Token) {fuel : Nat}
    (hfuel : 30 * rest.length + 51 ≤ fuel) :
    Follows tokens (declared fuel) (Grammar.declared (stopOf tokens) t rest) (t :: rest) := by
  cases fuel with
  | zero => omega
  | succ fuel =>
    rw [Grammar.declared]
    split
    · next hvariable =>
      -- The reader tries both keywords and then reads a statement; each of the three cases shows
      -- that those tried before are not there.
      rw [declared]
      apply Follows.once
      apply follows_eat hvariable
      exact follows_variableDeclaration tokens rest (by omega)
    · next hfunction =>
      have hvariable : t.kind ≠ .variableWord := by
        rw [hfunction]
        decide
      rw [declared]
      apply follows_eat_none (starts_eq_false hvariable)
      apply Follows.once
      apply follows_eat hfunction
      refine follows_bind (follows_signature tokens rest (by omega)) fun head rest' _ => ?_
      exact follows_map _ (follows_block tokens [] rest' (by omega)).of_map_nil_append
    · next hvariable hfunction =>
      have hlength : (t :: rest).length = rest.length + 1 := rfl
      rw [declared]
      apply follows_eat_none (starts_eq_false hvariable)
      apply follows_eat_none (starts_eq_false hfunction)
      exact follows_statement tokens (t :: rest) (by omega)
termination_by fuel

/-- Reading a statement follows its production. -/
theorem follows_statement (tokens rest : List Token) {fuel : Nat}
    (hfuel : 30 * rest.length + 20 ≤ fuel) :
    Follows tokens (statement fuel) (Grammar.statement (stopOf tokens) rest) rest := by
  cases fuel with
  | zero => omega
  | succ fuel =>
    rw [statement]
    cases rest with
    | nil =>
      rw [Grammar.statement]
      apply follows_look_end
      rw [kind_stopOf]
      -- The end mark is no keyword, so it is read as an expression, which refuses it.
      exact follows_map _ (follows_terminated tokens .semiAfterExpression [] (by omega))
    | cons t rest =>
      have hlength : (t :: rest).length = rest.length + 1 := rfl
      apply follows_look
      rw [Grammar.statement]
      -- The production asks for the read keywords first, so the other kinds are split only behind
      -- that.
      cases hread : readKind? t.kind with
      | some kind =>
        apply Follows.once
        apply follows_advance
        exact follows_map _ (follows_terminated tokens .semiAfterReadTarget rest (by omega))
      | none =>
        cases hkind : t.kind with
        | ifWord =>
          apply Follows.once
          apply follows_advance
          refine follows_bind
            (follows_condition tokens .parenAfterIf .parenAfterIfCondition rest (by omega))
            fun test rest₁ _ => ?_
          refine follows_bind (follows_statement tokens rest₁ (by omega))
            fun consequent rest₂ _ => ?_
          exact follows_alternative tokens test consequent rest₂ (by omega)
        | whileWord =>
          apply Follows.once
          apply follows_advance
          refine follows_bind
            (follows_condition tokens .parenAfterWhile .parenAfterWhileCondition rest (by omega))
            fun test rest' _ => ?_
          exact follows_map _ (follows_statement tokens rest' (by omega))
        | printWord =>
          apply Follows.once
          apply follows_advance
          exact follows_map _ (follows_terminated tokens .semiAfterValue rest (by omega))
        | returnWord =>
          apply Follows.once
          apply follows_advance
          exact follows_result tokens t rest (by omega)
        | lBrace =>
          apply Follows.once
          apply follows_advance
          exact follows_map _ (follows_block tokens [] rest (by omega)).of_map_nil_append
        | _ =>
          exact follows_map _
            (follows_terminated tokens .semiAfterExpression (t :: rest) (by omega))
termination_by fuel

/-- Reading the other branch of a condition follows its production. -/
theorem follows_alternative (tokens : List Token) (test : Expr) (consequent : Stmt)
    (rest : List Token) {fuel : Nat} (hfuel : 30 * rest.length + 1 ≤ fuel) :
    Follows tokens (alternative fuel test consequent)
      (Grammar.alternative (stopOf tokens) test consequent rest) rest := by
  cases fuel with
  | zero => omega
  | succ fuel =>
    rw [alternative]
    cases rest with
    | nil =>
      rw [Grammar.alternative]
      apply follows_eat_none rfl
      exact follows_pure (Stmt.ifThen test consequent) []
    | cons t rest =>
      rw [List.length_cons] at hfuel
      rw [Grammar.alternative]
      -- An `else` is always read by the condition that is closest to it.
      by_cases ht : t.kind = .elseWord
      · rw [if_pos ht]
        apply Follows.maybe
        apply follows_eat ht
        exact follows_map _ (follows_statement tokens rest (by omega))
      · rw [if_neg ht]
        apply follows_eat_none (starts_eq_false ht)
        exact follows_pure (Stmt.ifThen test consequent) _
termination_by fuel

/-- Reading the statements of a block follows their production, with those read before put in
    front. -/
theorem follows_block (tokens : List Token) (body : List Stmt) (rest : List Token) {fuel : Nat}
    (hfuel : 30 * rest.length + 23 ≤ fuel) :
    Follows tokens (block fuel body)
      ((Grammar.block (stopOf tokens) rest).map (body ++ ·)) rest := by
  cases fuel with
  | zero => omega
  | succ fuel =>
    rw [block]
    cases rest with
    | nil =>
      rw [Grammar.block]
      apply follows_closes
      exact follows_map (fun _ => body) (follows_expect .rBrace .braceAfterBlock [])
    | cons t rest =>
      rw [List.length_cons] at hfuel
      apply follows_closes
      rw [Grammar.block]
      by_cases ht : t.kind = .rBrace
      · have hcloses : (starts .rBrace (t :: rest) || (t :: rest).isEmpty) =
          true := by simp [starts, ht]
        rw [if_pos hcloses, if_pos ht]
        refine follows_map (fun _ => body ++ []) (follows_expected ht .braceAfterBlock rest) ?_
        intro _
        rw [List.append_nil]
      -- The reader carries the statements along that the grammar puts in front of the others on its
      -- way back.
      · have hopen : ¬(starts .rBrace (t :: rest) || (t :: rest).isEmpty) =
          true := by simp [starts, ht]
        rw [if_neg hopen, if_neg ht]
        have hfits := (Grammar.declaration (stopOf tokens) t rest).fits
        have henough :
            30 * (Grammar.declaration (stopOf tokens) t rest).rest.length + 23 ≤ fuel := by omega
        have hmore := follows_block tokens
          (body ++ (Grammar.declaration (stopOf tokens) t rest).statement?.toList)
          (Grammar.declaration (stopOf tokens) t rest).rest henough
        show Follows tokens _ (((((Grammar.block (stopOf tokens) _).map _).precede _).within _).map
          (body ++ ·)) _
        rw [Step.map_within_precede]
        simp only [← List.append_assoc]
        exact (recovers_declaration tokens t rest (by omega)).bind hmore _
termination_by fuel

end

/-- Reading all declarations returns what the production has, behind what was read before. -/
theorem exists_run_declarations (tokens : List Token) (statements : List Stmt) (rest : List Token)
    {c : Cursor} (hc : c.Sees tokens rest) {fuel : Nat} (hfuel : 30 * rest.length + 23 ≤ fuel) :
    ∃ c', (declarations fuel statements).run c =
        some (statements ++ (Grammar.declarations (stopOf tokens) rest).1, c') ∧
      c'.notes = c.notes ++ (Grammar.declarations (stopOf tokens) rest).2 := by
  cases fuel with
  | zero => omega
  | succ fuel =>
    rw [declarations, run_look, hc.isAt_eof]
    cases rest with
    | nil =>
      rw [Grammar.declarations]
      refine ⟨c, ?_, (List.append_nil _).symm⟩
      rw [List.isEmpty_nil, if_pos rfl, List.append_nil]
      rfl
    | cons t rest =>
      rw [List.length_cons] at hfuel
      -- A declaration reads a token or more, and one token pays for all fuel used beside that of
      -- the declarations left.
      have hfirst : 30 * rest.length + 52 ≤ fuel := by omega
      obtain ⟨c', hrun, hsees, hnotes⟩ := recovers_declaration tokens t rest hfirst c hc
      have hfits := (Grammar.declaration (stopOf tokens) t rest).fits
      have hothers :
          30 * (Grammar.declaration (stopOf tokens) t rest).rest.length + 23 ≤ fuel := by omega
      obtain ⟨c'', hrun', hnotes'⟩ := exists_run_declarations tokens
        (statements ++ (Grammar.declaration (stopOf tokens) t rest).statement?.toList) _ hsees
          hothers
      rw [if_neg (by simp), StateT.run_bind, hrun, Grammar.declarations]
      refine ⟨c'', ?_, ?_⟩
      · rw [List.append_assoc] at hrun'
        exact hrun'
      · rw [hnotes', hnotes, List.append_assoc]
termination_by fuel

end Reader

/-- With enough fuel, a parser with a cursor comes to an end, and makes of the tokens what they are
    parsed as. -/
theorem Parsed.byCursor_eq {fuel : Nat} (tokens : List Token)
    (hfuel : 30 * tokens.length + 23 ≤ fuel) : byCursor fuel tokens = some (ofTokens tokens) := by
  have hfront : (front tokens).length ≤ tokens.length := (List.takeWhile_prefix _).length_le
  have henough : 30 * (front tokens).length + 23 ≤ fuel := by omega
  obtain ⟨c, hrun, hnotes⟩ :=
    Reader.exists_run_declarations tokens [] (front tokens) (.start tokens) henough
  rw [byCursor, hrun]
  show some (Parsed.mk _ c.notes) = _
  rw [hnotes]
  rfl

end Treewalk
