import Treewalk.Grammar.Statement
import Treewalk.Proofs.Grammar.Outcome
import Treewalk.Proofs.Tree.NormalForm

/-!
# Whatever the parser makes is in normal form

A chain of some level is made of operands that are tighter than the level, and a connective joins
what has been read so far to one more of them. So what a production makes is as tight as its place
in the grammar asks for, and nothing in it needs parentheses that it does not have
(`Expr.NormalAt`). This is so as well if something was wrong: in front of an equals sign there is
always a whole chain, and when nothing can be assigned to it the chain itself stays.

A statement that could take an alternative at its end stops in front of a token that is not `else`
(`Stmt.Settled`). Otherwise it would have taken the alternative.

The main statement is `Parsed.normal_ofTokens`, for all lists of tokens and with any errors in them.
-/

namespace Treewalk

namespace Step

variable {α β : Type} {n k j : Nat} {tokens : List Token}
variable {P P' : α → List Token → Prop} {Q : β → List Token → Prop}

/-- If there is a value, then this holds of it and of the tokens that are left. -/
def Makes (s : Step α n k) (P : α → List Token → Prop) : Prop :=
  s.Ensures (fun a rest _ => P a rest) fun _ _ _ => True

/-- What holds of the value may be stated more weakly. -/
theorem Makes.imp {s : Step α n k} (h : s.Makes P) (himp : ∀ a rest, P a rest → P' a rest) :
    s.Makes P' :=
  Ensures.imp h (fun a rest _ => himp a rest) fun _ _ _ => id

/-- Nothing need be known of a value that is not kept. -/
theorem makes_any (s : Step α n k) : s.Makes fun _ _ => True := by
  cases s <;> trivial

/-- A step that is done at once makes its value. -/
theorem makes_pure {a : α} (h : P a tokens) : (pure a tokens).Makes P := h

/-- A step that fails makes nothing. -/
theorem makes_fail (fault : SyntaxFault) : (fail fault tokens : Step α tokens.length k).Makes P :=
  trivial

/-- Two steps make what the second one makes of what the first one did. -/
theorem makes_bind {s : Step α n k}
    {next : α → (rest : List Token) → rest.length + k ≤ n → Step β rest.length j} (h : s.Makes P)
    (hnext : ∀ a rest fits, P a rest → (next a rest fits).Makes Q) : (s.bind next).Makes Q :=
  (ensures_bind s next).2
    (Ensures.imp h (fun a rest _ hvalue fits => hnext a rest fits hvalue) fun _ _ _ => id)

/-- A mapped step makes the image of what the step makes. -/
theorem makes_map {s : Step α n k} {g : α → β} (h : s.Makes fun a => Q (g a)) : (s.map g).Makes Q :=
  (ensures_map g s).2 h

/-- A mapped step makes what the map makes of anything. -/
theorem makes_map_of_forall {s : Step α n k} {g : α → β} (h : ∀ a rest, Q (g a) rest) :
    (s.map g).Makes Q :=
  makes_map ((makes_any s).imp fun a rest _ => h a rest)

/-- What is made does not depend on how many tokens are known to be read. -/
theorem makes_maybe {s : Step α n k} (h : s.Makes P) : s.maybe.Makes P := (ensures_maybe s).2 h

/-- Nor does it if one token is known to be read. -/
theorem makes_once {s : Step α n (k + 1)} (h : s.Makes P) : s.once.Makes P := (ensures_once s).2 h

/-- A token in front of a step does not change what it makes. -/
theorem makes_behind {s : Step α tokens.length k} (t : Token) (h : s.Makes P) :
    (s.behind t).Makes P :=
  (ensures_behind s t).2 h

end Step

/-- The expression is in normal form, and as tight as this or tighter. -/
structure Expr.NormalAt (least : Nat) (e : Expr) : Prop where
  normal : e.Normal
  tight : least ≤ e.tightness

/-- What is as tight as one place asks for is as tight as any looser one does. -/
theorem Expr.NormalAt.mono {least least' : Nat} {e : Expr} (h : e.NormalAt least)
    (hle : least' ≤ least) :
    e.NormalAt least' := ⟨h.normal, Nat.le_trans hle h.tight⟩

/-- A connective joins what is as tight as itself to what is tighter, and is left-associative by
    this. -/
theorem Expr.NormalAt.join {c : Connective} {left right : Expr} (hleft : left.NormalAt c.tightness)
    (hright : right.NormalAt (c.tightness + 1)) (span : Span) :
    (c.join left right span).NormalAt c.tightness :=
  ⟨hleft.normal.join span hright.normal hleft.tight hright.tight,
    Nat.le_of_eq (tightness_join c left right span).symm⟩

/-- The connectives that continue a chain are those of its level. -/
theorem Connective.level_of_atLevel? {l : Level} {kind : Kind} {c : Connective}
    (h : atLevel? l kind = some c) :
    c.level = l := of_decide_eq_true (Option.filter_eq_some_iff.1 h).2

namespace Grammar

open Step

/-! ## Expressions -/

/-- What has been read as something to assign to is in normal form, and so is the assignment. What
    cannot be assigned to stays as it is. -/
theorem assignTo_normal {n k : Nat} {target : Expr} (htarget : target.Normal) (equals : Token)
    {value : Step Expr n k} (h : value.Makes fun e _ => e.Normal) :
    (assignTo target equals value).Makes fun e _ => e.Normal := by
  unfold assignTo
  split
  · exact makes_map (h.imp fun v _ hv => .assign hv)
  · cases htarget with
    | index hobject htight hposition =>
      exact makes_map (h.imp fun v _ hv => .indexAssign hobject htight hposition hv)
  · exact (ensures_note _ _).2 (makes_map (h.imp fun _ _ _ => htarget))

-- By recursion on the number of tokens, and where a production passes on to another one without
-- taking any, on how far the other one is down the grammar.
mutual

/-- An expression is made in normal form. -/
theorem expression_normal (tokens : List Token) :
    (expression tokens).Makes fun e _ => e.Normal := by
  rw [expression]
  apply makes_bind (chain_normal .or tokens)
  intro target rest fits htarget
  exact assignment_normal htarget.normal rest
termination_by 20 * tokens.length + 18
decreasing_by
  all_goals
    have hdepth := Level.or.depth_le
    omega

/-- An assignment is made to a name or an element in normal form, and to nothing else. -/
theorem assignment_normal {target : Expr} (htarget : target.Normal) (tokens : List Token) :
    (assignment target tokens).Makes fun e _ => e.Normal := by
  cases tokens with
  | nil =>
    rw [assignment]
    exact makes_pure htarget
  | cons t rest =>
    rw [assignment]
    split
    · exact makes_maybe (assignTo_normal htarget t (makes_behind t (expression_normal rest)))
    · exact makes_pure htarget
termination_by 20 * tokens.length

/-- A chain is as tight as its level. -/
theorem chain_normal (l : Level) (tokens : List Token) :
    (chain l tokens).Makes fun e _ => e.NormalAt l.tightness := by
  rw [chain]
  apply makes_bind (operand_normal l tokens)
  intro left rest fits hleft
  exact chainMore_normal (hleft.mono (Nat.le_succ _)) rest
termination_by 20 * tokens.length + 5 + 2 * l.depth

/-- An operand is tighter than the level of the chain that it is part of. -/
theorem operand_normal (l : Level) (tokens : List Token) :
    (operand l tokens).Makes fun e _ => e.NormalAt (l.tightness + 1) := by
  rw [operand]
  split
  · next tighter htighter =>
    have hdepth := Level.depth_of_tighter? htighter
    rw [← Level.tightness_of_tighter? htighter]
    exact chain_normal tighter tokens
  · next htightest =>
    rw [Level.tightness_of_tighter?_eq_none htightest]
    exact unary_normal tokens
termination_by 20 * tokens.length + 4 + 2 * l.depth

/-- A chain goes on from what is as tight as its level, and stays as tight. -/
theorem chainMore_normal {l : Level} {left : Expr} (hleft : left.NormalAt l.tightness)
    (tokens : List Token) : (chainMore l left tokens).Makes fun e _ => e.NormalAt l.tightness := by
  cases tokens with
  | nil =>
    rw [chainMore]
    exact makes_pure hleft
  | cons t rest =>
    rw [chainMore]
    split
    · next c hconnective =>
      -- What is joined is a chain of the level again, and the left side of what follows.
      have hlevel : c.tightness = l.tightness :=
        congrArg Level.tightness (Connective.level_of_atLevel? hconnective)
      apply makes_maybe
      apply makes_behind
      apply makes_bind (operand_normal l rest)
      intro right rest' fits hright
      rw [← hlevel] at hleft hright
      exact chainMore_normal (hlevel ▸ hleft.join hright t.span) rest'
    · exact makes_pure hleft
termination_by 20 * tokens.length
decreasing_by
  all_goals
    have hdepth := l.depth_le
    simp only [List.length_cons] at *
    omega

/-- A unary expression is as tight as one. -/
theorem unary_normal (tokens : List Token) :
    (unary tokens).Makes fun e _ => e.NormalAt Expr.unaryTightness := by
  cases tokens with
  | nil =>
    rw [unary]
    exact (call_normal []).imp fun e _ h => h.mono (by decide)
  | cons t rest =>
    rw [unary]
    split
    · apply makes_once
      apply makes_behind
      apply makes_map
      apply (unary_normal rest).imp
      intro inner _ hinner
      exact ⟨.unary hinner.normal hinner.tight, Nat.le_refl _⟩
    · -- Without an operator it is a call, which is tighter than asked for.
      exact (call_normal (t :: rest)).imp fun e _ h => h.mono (by decide)
termination_by 20 * tokens.length + 3

/-- A call is as tight as one. -/
theorem call_normal (tokens : List Token) :
    (call tokens).Makes fun e _ => e.NormalAt Expr.callTightness := by
  rw [call]
  apply makes_bind (primary_normal tokens)
  intro callee rest fits hcallee
  exact callMore_normal (hcallee.mono (by decide)) rest
termination_by 20 * tokens.length + 2

/-- What follows a callee is put around it, and the whole is a callee again. -/
theorem callMore_normal {callee : Expr} (hcallee : callee.NormalAt Expr.callTightness)
    (tokens : List Token) :
    (callMore callee tokens).Makes fun e _ => e.NormalAt Expr.callTightness := by
  cases tokens with
  | nil =>
    rw [callMore]
    exact makes_pure hcallee
  | cons t rest =>
    rw [callMore]
    split
    · apply makes_maybe
      apply makes_behind
      apply makes_bind (arguments_normal .rParen rest)
      intro args rest₁ fits₁ hargs
      apply makes_bind (makes_any _)
      intro paren rest₂ fits₂ _
      -- The call made here is the callee of what follows it.
      exact callMore_normal ⟨.call hcallee.normal hcallee.tight hargs, Nat.le_refl _⟩ rest₂
    · split
      · apply makes_maybe
        apply makes_behind
        apply makes_bind (expression_normal rest)
        intro position rest₁ fits₁ hposition
        apply makes_bind (makes_any _)
        intro bracket rest₂ fits₂ _
        exact callMore_normal ⟨.index hcallee.normal hcallee.tight hposition, Nat.le_refl _⟩ rest₂
      · exact makes_pure hcallee
termination_by 20 * tokens.length

/-- A primary expression is as tight as one. -/
theorem primary_normal (tokens : List Token) :
    (primary tokens).Makes fun e _ => e.NormalAt Expr.primaryTightness := by
  cases tokens with
  | nil =>
    rw [primary]
    exact makes_fail .expression
  | cons t rest =>
    rw [primary]
    split
    · next value _ => exact makes_behind t (makes_pure ⟨.literal value, Nat.le_refl _⟩)
    · split
      · exact makes_behind t (makes_pure ⟨.name t, Nat.le_refl _⟩)
      · apply makes_once
        apply makes_behind
        apply makes_bind (expression_normal rest)
        intro inner rest' fits hinner
        -- Between brackets any normal expression may stand, however loose.
        exact makes_map_of_forall fun _ _ => ⟨.group hinner, Nat.le_refl _⟩
      · apply makes_once
        apply makes_behind
        apply makes_bind (arguments_normal .rBracket rest)
        intro elements rest' fits helements
        exact makes_map_of_forall fun _ _ => ⟨.array helements, Nat.le_refl _⟩
      · exact makes_fail .expression
termination_by 20 * tokens.length + 1

/-- Arguments are all in normal form. -/
theorem arguments_normal (close : Kind) (tokens : List Token) :
    (arguments close tokens).Makes fun args _ => ∀ e ∈ args, e.Normal := by
  rw [arguments]
  split
  · exact makes_pure nofun
  · apply makes_maybe
    apply makes_bind (expression_normal tokens)
    intro first rest fits hfirst
    exact makes_map
      ((argumentsMore_normal rest).imp fun _ _ hothers => List.forall_mem_cons.2 ⟨hfirst, hothers⟩)
termination_by 20 * tokens.length + 19

/-- Arguments behind the first one are all in normal form. -/
theorem argumentsMore_normal (tokens : List Token) :
    (argumentsMore tokens).Makes fun args _ => ∀ e ∈ args, e.Normal := by
  cases tokens with
  | nil =>
    rw [argumentsMore]
    exact makes_pure nofun
  | cons t rest =>
    rw [argumentsMore]
    split
    · apply makes_maybe
      apply makes_behind
      apply makes_bind (expression_normal rest)
      intro next rest' fits hnext
      -- The first of them is normal by itself, the others by the recursion.
      exact makes_map
        ((argumentsMore_normal rest').imp fun _ _ hothers =>
          List.forall_mem_cons.2 ⟨hnext, hothers⟩)
    · exact makes_pure nofun
termination_by 20 * tokens.length

end

/-! ## Parts of statements -/

/-- The expression in front of a semicolon is in normal form. -/
theorem terminated_normal (fault : SyntaxFault) (tokens : List Token) :
    (terminated fault tokens).Makes fun e _ => e.Normal := by
  rw [terminated]
  apply makes_once
  apply makes_bind (expression_normal tokens)
  intro value rest fits hvalue
  exact makes_map_of_forall fun _ _ => hvalue

/-- An initial value is in normal form, if there is one. -/
theorem initializer_normal (tokens : List Token) :
    (initializer tokens).Makes fun init _ => ∀ e ∈ init, e.Normal := by
  cases tokens with
  | nil => exact makes_pure nofun
  | cons t rest =>
    rw [initializer]
    split
    · apply makes_maybe
      apply makes_behind
      apply makes_map
      apply (expression_normal rest).imp
      -- The only member of what is made is the value itself.
      rintro value _ hvalue _ ⟨⟩
      exact hvalue
    · exact makes_pure nofun

/-- A declaration of a variable is in normal form. -/
theorem variableDeclaration_normal (tokens : List Token) :
    (variableDeclaration tokens).Makes fun s _ => s.Normal := by
  rw [variableDeclaration]
  apply makes_once
  apply makes_bind (makes_any _)
  intro name rest₁ fits₁ _
  apply makes_bind (initializer_normal rest₁)
  intro init rest₂ fits₂ hinit
  exact makes_map_of_forall fun _ _ => .declare hinit

/-- A condition is in normal form. -/
theorem condition_normal (opening closing : SyntaxFault) (tokens : List Token) :
    (condition opening closing tokens).Makes fun e _ => e.Normal := by
  rw [condition]
  apply makes_once
  apply makes_bind (makes_any _)
  intro paren rest₁ fits₁ _
  apply makes_bind (expression_normal rest₁)
  intro value rest₂ fits₂ hvalue
  exact makes_map_of_forall fun _ _ => hvalue

end Grammar

/-! ## Statements -/

/-- A statement in normal form that may be a branch. If an alternative could still belong to it,
    then none follows. -/
structure Stmt.Settled (s : Stmt) (rest : List Token) : Prop where
  normal : s.Normal
  branch : s.isDeclaration = false
  closed : s.endsOpen = true → Grammar.starts .elseWord rest = false

/-- A statement that no alternative could belong to is settled wherever it stops. -/
theorem Stmt.Normal.settled {s : Stmt} (h : s.Normal) (hbranch : s.isDeclaration = false)
    (hclosed : s.endsOpen = false) (rest : List Token) : s.Settled rest :=
  ⟨h, hbranch, fun hopen => absurd (hclosed.symm.trans hopen) (by decide)⟩

namespace Grammar

open Step

/-- Statements that end with an expression and a semicolon are settled. -/
theorem terminated_settled (fault : SyntaxFault) (make : Expr → Stmt)
    (hnormal : ∀ value, value.Normal → (make value).Normal)
    (hbranch : ∀ value, (make value).isDeclaration = false)
    (hclosed : ∀ value, (make value).endsOpen = false) (tokens : List Token) :
    ((terminated fault tokens).map make).Makes Stmt.Settled := by
  apply makes_map
  apply (terminated_normal fault tokens).imp
  intro value rest hvalue
  exact (hnormal value hvalue).settled (hbranch value) (hclosed value) rest

/-- A return is settled, with a value and without. -/
theorem result_settled (keyword : Token) (tokens : List Token) :
    (result keyword tokens).Makes Stmt.Settled := by
  have hvalue := terminated_settled .semiAfterReturn (fun value => .result keyword (some value))
    (fun value hvalue => .result (by rintro _ ⟨⟩; exact hvalue)) (fun _ => rfl) (fun _ => rfl)
  cases tokens with
  | nil => exact hvalue []
  | cons t rest =>
    rw [result]
    split
    · have hnone : (Stmt.result keyword none).Normal :=
        .result fun e hmem => absurd hmem (Option.not_mem_none e)
      exact makes_behind t (makes_pure (hnone.settled rfl rfl rest))
    · exact hvalue (t :: rest)

-- By recursion on the number of tokens and the place in the grammar, as above.
mutual

/-- What a declaration gives, recovered from or not, is in normal form. -/
theorem declaration_normal (stop t : Token) (rest : List Token) :
    ∀ s ∈ (declaration stop t rest).statement?, s.Normal := by
  have hdeclared := declared_normal stop t rest
  rw [declaration]
  cases hstep : declared stop t rest with
  | done statement rest' notes fits =>
    rw [hstep] at hdeclared
    rintro s ⟨⟩
    exact hdeclared
  | stuck fault rest' notes fits => exact nofun
termination_by 10 * rest.length + 14

/-- A declaration that is read is in normal form. -/
theorem declared_normal (stop t : Token) (rest : List Token) :
    (declared stop t rest).Makes fun s _ => s.Normal := by
  rw [declared]
  split
  · exact makes_once (makes_behind t (variableDeclaration_normal rest))
  · apply makes_once
    apply makes_behind
    apply makes_bind (makes_any _)
    intro head rest' fits _
    exact makes_map ((block_normal stop rest').imp fun body _ hbody => .function hbody)
  · exact (statement_settled stop (t :: rest)).imp fun s _ h => h.normal
termination_by 10 * rest.length + 13

/-- A statement is in normal form and settled where it stops. -/
theorem statement_settled (stop : Token) (tokens : List Token) :
    (statement stop tokens).Makes Stmt.Settled := by
  cases tokens with
  | nil =>
    rw [statement]
    exact terminated_settled _ _ (fun _ => .expression) (fun _ => rfl) (fun _ => rfl) []
  | cons t rest =>
    rw [statement]
    split
    · exact makes_once
        (makes_behind t (terminated_settled _ _ (fun _ => .read) (fun _ => rfl)
          (fun _ => rfl) rest))
    · split
      · apply makes_once
        apply makes_behind
        apply makes_bind (condition_normal _ _ rest)
        intro test rest₁ fits₁ htest
        apply makes_bind (statement_settled stop rest₁)
        intro consequent rest₂ fits₂ hconsequent
        -- That the consequent is settled is what tells whose the `else` behind it is.
        exact alternative_settled stop htest hconsequent
      · apply makes_once
        apply makes_behind
        apply makes_bind (condition_normal _ _ rest)
        intro test rest' fits htest
        apply makes_map
        apply (statement_settled stop rest').imp
        intro body _ hbody
        -- A loop is as open to an alternative as its body is.
        exact ⟨.loop htest hbody.normal hbody.branch, rfl, hbody.closed⟩
      · exact makes_once
          (makes_behind t (terminated_settled _ _ (fun _ => .print) (fun _ => rfl)
            (fun _ => rfl) rest))
      · exact makes_once (makes_behind t (result_settled t rest))
      · apply makes_once
        apply makes_behind
        apply makes_map
        apply (block_normal stop rest).imp
        intro body rest' hbody
        exact (Stmt.Normal.block hbody).settled rfl rfl rest'
      · exact terminated_settled _ _ (fun _ => .expression) (fun _ => rfl) (fun _ => rfl)
          (t :: rest)
termination_by 10 * tokens.length + 2

/-- A condition takes the `else` in front of which its consequent stopped, so none is left to it. -/
theorem alternative_settled (stop : Token) {test : Expr} (htest : test.Normal) {consequent : Stmt}
    {tokens : List Token} (h : consequent.Settled tokens) :
    (alternative stop test consequent tokens).Makes Stmt.Settled := by
  cases tokens with
  | nil =>
    rw [alternative]
    exact makes_pure ⟨.ifThen htest h.normal h.branch, rfl, fun _ => rfl⟩
  | cons t rest =>
    rw [alternative]
    split
    · next helse =>
      -- The first branch has stopped in front of `else`, so it could not take an alternative.
      have hclosed : consequent.endsOpen = false := by
        rw [Bool.eq_false_iff]
        intro hopen
        have hstarts := h.closed hopen
        simp [starts, helse] at hstarts
      apply makes_maybe
      apply makes_behind
      apply makes_map
      apply (statement_settled stop rest).imp
      intro other _ hother
      exact ⟨.ifThenElse htest h.normal h.branch hclosed hother.normal hother.branch, rfl,
        hother.closed⟩
    · next helse =>
      exact makes_pure ⟨.ifThen htest h.normal h.branch, rfl, fun _ =>
        by simpa [starts] using helse⟩
termination_by 10 * tokens.length

/-- The statements of a block are in normal form. -/
theorem block_normal (stop : Token) (tokens : List Token) :
    (block stop tokens).Makes fun body _ => ∀ s ∈ body, s.Normal := by
  cases tokens with
  | nil =>
    rw [block]
    exact makes_fail .braceAfterBlock
  | cons t rest =>
    rw [block]
    split
    · exact makes_behind t (makes_pure nofun)
    · have hfirst := declaration_normal stop t rest
      split
      next statement? rest' notes fits heq =>
      rw [heq] at hfirst
      rw [Makes, ensures_within, ensures_precede, ensures_map]
      apply (block_normal stop rest').imp
      intro body _ hbody
      -- A declaration that was recovered from adds no statement.
      exact List.forall_mem_append.2 ⟨fun s hs => hfirst s (Option.mem_toList.1 hs), hbody⟩
termination_by 10 * tokens.length + 5

end

/-- All statements of a program are in normal form. -/
theorem declarations_normal (stop : Token) (tokens : List Token) :
    ∀ s ∈ (declarations stop tokens).1, s.Normal := by
  cases tokens with
  | nil =>
    rw [declarations]
    exact nofun
  | cons t rest =>
    rw [declarations]
    have hfirst := declaration_normal stop t rest
    split
    next statement? rest' notes fits heq =>
    rw [heq] at hfirst
    -- A declaration that was recovered from adds no statement.
    exact List.forall_mem_append.2
      ⟨fun s hs => hfirst s (Option.mem_toList.1 hs), declarations_normal stop rest'⟩
termination_by tokens.length

end Grammar

/-- Whatever the tokens are and whatever is wrong with them, the program that the parser makes of
    them is in normal form. -/
theorem Parsed.normal_ofTokens (tokens : List Token) : (ofTokens tokens).program.Normal :=
  Grammar.declarations_normal (stopOf tokens) (tokens.takeWhile (·.kind != .eof))

end Treewalk
