import Treewalk.Grammar.Statement

/-!
# The induction over the productions

A production is put together from a few steps: reading a token that is expected, giving up, going on
behind a value, and so on. If a property of steps has a *rule* for each of these, every production
has the property. The rules are the fields of `Grammar.Rules`, and the induction over the
productions is here, once for all properties.

A step inside of a statement or an expression starts behind a token that has been read already: an
operator, a bracket, a keyword. A property may ask less of such a step (`Inside`) than of one that
starts at the first token (`Whole`). Only a block needs that, which is never read but behind the
brace that opens it: what the declarations in it do adds up in a way of its own (`Adds`), and not in
that of steps.

- `Rules.statement`, `Rules.block` and the others: the productions
- `Rules.declaration`, `Rules.declarations`: what is read or recovered from, up to the end of the
  tokens
-/

namespace Treewalk.Grammar

/-- What has to be shown of a property of steps and the tokens that they start at, so that all
    productions have it. -/
structure Rules (stop : Token) (Whole Inside : {α : Type} → {n k : Nat} → Step α n k → List Token →
    Prop)
    (Adds : List Token → List Token → List Diagnostic → Prop) : Prop where
  pure {α : Type} (a : α) (tokens : List Token) : Whole (Step.pure a tokens) tokens
  fail {α : Type} {k : Nat} (fault : SyntaxFault) (tokens : List Token) :
    Whole (Step.fail fault tokens : Step α tokens.length k) tokens
  expect (kind : Kind) (fault : SyntaxFault) (tokens : List Token) :
    Whole (Step.expect kind fault tokens) tokens
  bind {α β : Type} {n k j : Nat} {tokens : List Token} {s : Step α n k}
    {next : α → (rest : List Token) → rest.length + k ≤ n → Step β rest.length j}
    (h : Whole s tokens)
    (hnext : ∀ a rest fits, Whole (next a rest fits) rest) : Whole (s.bind next) tokens
  map {α β : Type} {n k : Nat} {tokens : List Token} {s : Step α n k} (g : α → β)
    (h : Whole s tokens) :
    Whole (s.map g) tokens
  maybe {α : Type} {n k : Nat} {tokens : List Token} {s : Step α n k} (h : Whole s tokens) :
    Whole s.maybe tokens
  once {α : Type} {n k : Nat} {tokens : List Token} {s : Step α n (k + 1)} (h : Whole s tokens) :
    Whole s.once tokens
  /-- A value is read behind an equals sign, and cannot be assigned to what is in front of it. -/
  target {α : Type} {tokens : List Token} {s : Step α tokens.length 1} {equals : Token}
    (hequals : equals.kind = .eq) (h : Whole s tokens) :
    Whole ((s.behind equals).note (.syntactic equals .assignmentTarget)).maybe (equals :: tokens)
  inside {α : Type} {n k : Nat} {tokens : List Token} {s : Step α n k} (h : Whole s tokens) :
    Inside s tokens
  bindInside {α β : Type} {n k j : Nat} {tokens : List Token} {s : Step α n k}
    {next : α → (rest : List Token) → rest.length + k ≤ n →
      Step β rest.length j} (h : Inside s tokens)
    (hnext : ∀ a rest fits, Inside (next a rest fits) rest) : Inside (s.bind next) tokens
  mapInside {α β : Type} {n k : Nat} {tokens : List Token} {s : Step α n k} (g : α →
    β) (h : Inside s tokens) :
    Inside (s.map g) tokens
  behind {α : Type} {tokens : List Token} {k : Nat} {s : Step α tokens.length k}
    (h : Inside s tokens)
    (t : Token) : Whole (s.behind t) (t :: tokens)
  /-- A declaration is read, or the grammar is stuck in it and goes on behind the fault. -/
  recover {tokens : List Token} {s : Step Stmt (tokens.length + 1) 1} {t : Token}
    (h : Whole s (t :: tokens)) :
    Adds (t :: tokens) (Grammar.recover stop (Nat.succ_pos _) s).rest
      (Grammar.recover stop (Nat.succ_pos _) s).notes
  /-- The rest of a block is read behind one of its declarations. -/
  within {α β : Type} {n m k : Nat} {tokens rest : List Token} {notes : List Diagnostic}
    {s : Step α n k}
    (g : α → β) (hfits : n + 0 ≤ m) (h : Adds tokens rest notes) (hs : Inside s rest) :
    Inside (((s.map g).precede notes).within hfits) tokens
  nothing : Adds [] [] []
  /-- Declarations are read one behind the other. -/
  trans {tokens rest rest' : List Token} {notes notes' : List Diagnostic}
    (h : Adds tokens rest notes)
    (h' : Adds rest rest' notes') : Adds tokens rest' (notes ++ notes')

namespace Rules

variable {stop : Token} {Whole Inside : {α : Type} → {n k : Nat} → Step α n k → List Token → Prop}
variable {Adds : List Token → List Token → List Diagnostic → Prop}

/-! ## Expressions -/

/-- A step behind a token that is read has the property as if it started at the token. -/
theorem behindWhole (h : Rules stop Whole Inside Adds) {α : Type} {tokens : List Token} {k : Nat}
    {s : Step α tokens.length k} (hs : Whole s tokens) (t : Token) :
    Whole (s.behind t) (t :: tokens) :=
  h.behind (h.inside hs) t

/-- An assignment is its value behind the equals sign, with a note where the target is none. -/
theorem assignTo (h : Rules stop Whole Inside Adds) (target : Expr) {equals : Token}
    (hequals : equals.kind = .eq) {tokens : List Token} {value : Step Expr tokens.length 1}
    (hvalue : Whole value tokens) :
    Whole (assignTo target equals (value.behind equals)).maybe (equals :: tokens) := by
  unfold Grammar.assignTo
  split
  · exact h.maybe (h.map _ (h.behindWhole hvalue equals))
  · exact h.maybe (h.map _ (h.behindWhole hvalue equals))
  · -- The value is dropped, and it makes no difference on which side of the equals sign.
    have hmap : (value.behind equals).map (fun _ => target) =
        (value.map fun _ => target).behind equals := by
      cases value <;> rfl
    rw [hmap]
    exact h.target hequals (h.map _ hvalue)

-- By recursion on the number of tokens, and where a production passes on to another one without
-- taking any, on how far the other one is down the grammar.
mutual

/-- An expression is a chain of the loosest level and what may be assigned to it. -/
theorem expression (h : Rules stop Whole Inside Adds) (tokens : List Token) :
    Whole (expression tokens) tokens := by
  rw [Grammar.expression]
  exact h.bind (h.chain .or tokens) fun target rest _ => h.assignment target rest
termination_by 20 * tokens.length + 18
decreasing_by
  all_goals
    have hdepth := Level.or.depth_le
    omega

/-- An assignment is an equals sign and an expression, or nothing. -/
theorem assignment (h : Rules stop Whole Inside Adds) (target : Expr) (tokens : List Token) :
    Whole (assignment target tokens) tokens := by
  cases tokens with
  | nil =>
    rw [Grammar.assignment]
    exact h.pure target []
  | cons t rest =>
    rw [Grammar.assignment]
    split
    · next hequals => exact h.assignTo target hequals (h.expression rest)
    · exact h.pure target _
termination_by 20 * tokens.length

/-- A chain is an operand and the rest of the chain. -/
theorem chain (h : Rules stop Whole Inside Adds) (l : Level) (tokens : List Token) :
    Whole (chain l tokens) tokens := by
  rw [Grammar.chain]
  exact h.bind (h.operand l tokens) fun left rest _ => h.chainMore l left rest
termination_by 20 * tokens.length + 5 + 2 * l.depth

/-- An operand is a chain of the next level, or a unary expression on the last one. -/
theorem operand (h : Rules stop Whole Inside Adds) (l : Level) (tokens : List Token) :
    Whole (operand l tokens) tokens := by
  rw [Grammar.operand]
  split
  · next tighter htighter =>
    have hdepth := Level.depth_of_tighter? htighter
    exact h.chain tighter tokens
  · exact h.unary tokens
termination_by 20 * tokens.length + 4 + 2 * l.depth

/-- The rest of a chain is a connective, an operand and the rest again, or nothing. -/
theorem chainMore (h : Rules stop Whole Inside Adds) (l : Level) (left : Expr)
    (tokens : List Token) : Whole (chainMore l left tokens) tokens := by
  cases tokens with
  | nil =>
    rw [Grammar.chainMore]
    exact h.pure left []
  | cons t rest =>
    rw [Grammar.chainMore]
    split
    · next c _ =>
      refine h.maybe (h.behindWhole ?_ t)
      -- The operand leaves no more tokens than there are behind the connective, so the rest of the
      -- chain is called on fewer.
      exact h.bind (h.operand l rest) fun right rest' _ =>
        h.chainMore l (c.join left right t.span) rest'
    · exact h.pure left _
termination_by 20 * tokens.length
decreasing_by
  all_goals
    have hdepth := l.depth_le
    simp only [List.length_cons] at *
    omega

/-- A unary expression is an operator in front of another one, or a call. -/
theorem unary (h : Rules stop Whole Inside Adds) (tokens : List Token) :
    Whole (unary tokens) tokens := by
  cases tokens with
  | nil =>
    rw [Grammar.unary]
    exact h.call []
  | cons t rest =>
    rw [Grammar.unary]
    split
    · exact h.once (h.behindWhole (h.map _ (h.unary rest)) t)
    · exact h.call (t :: rest)
termination_by 20 * tokens.length + 3

/-- A call is a primary expression and what follows it. -/
theorem call (h : Rules stop Whole Inside Adds) (tokens : List Token) :
    Whole (call tokens) tokens := by
  rw [Grammar.call]
  exact h.bind (h.primary tokens) fun callee rest _ => h.callMore callee rest
termination_by 20 * tokens.length + 2

/-- What follows a callee is led by a bracket, and there may be more behind it. -/
theorem callMore (h : Rules stop Whole Inside Adds) (callee : Expr) (tokens : List Token) :
    Whole (callMore callee tokens) tokens := by
  cases tokens with
  | nil =>
    rw [Grammar.callMore]
    exact h.pure callee []
  | cons t rest =>
    rw [Grammar.callMore]
    split
    · refine h.maybe (h.behindWhole ?_ t)
      -- A call with its arguments, and below an element at its position: both go on with the new
      -- callee.
      apply h.bind (h.arguments .rParen rest)
      intro args rest₁ fits₁
      apply h.bind (h.expect .rParen .parenAfterArguments rest₁)
      intro paren rest₂ fits₂
      exact h.callMore (.call callee args paren) rest₂
    · split
      · refine h.maybe (h.behindWhole ?_ t)
        apply h.bind (h.expression rest)
        intro position rest₁ fits₁
        apply h.bind (h.expect .rBracket .bracketAfterIndex rest₁)
        intro bracket rest₂ fits₂
        exact h.callMore (.index callee position bracket) rest₂
      · exact h.pure callee _
termination_by 20 * tokens.length

/-- A primary expression is a literal, a name, or what stands between brackets. -/
theorem primary (h : Rules stop Whole Inside Adds) (tokens : List Token) :
    Whole (primary tokens) tokens := by
  cases tokens with
  | nil =>
    rw [Grammar.primary]
    exact h.fail .expression []
  | cons t rest =>
    rw [Grammar.primary]
    split
    · next value _ => exact h.behindWhole (h.pure (Expr.literal value) rest) t
    · split
      · exact h.behindWhole (h.pure (Expr.name t) rest) t
      · refine h.once (h.behindWhole ?_ t)
        -- What is enclosed starts one token later, so the recursion is on fewer tokens.
        apply h.bind (h.expression rest)
        intro inner rest' fits
        exact h.map _ (h.expect .rParen .parenAfterExpression rest')
      · refine h.once (h.behindWhole ?_ t)
        apply h.bind (h.arguments .rBracket rest)
        intro elements rest' fits
        exact h.map _ (h.expect .rBracket .bracketAfterElements rest')
      · exact h.fail .expression _
termination_by 20 * tokens.length + 1

/-- Arguments are an expression and the arguments behind it, or nothing. -/
theorem arguments (h : Rules stop Whole Inside Adds) (close : Kind) (tokens : List Token) :
    Whole (arguments close tokens) tokens := by
  rw [Grammar.arguments]
  split
  · exact h.pure [] tokens
  · exact h.maybe (h.bind (h.expression tokens) fun first rest _ => h.map _ (h.argumentsMore rest))
termination_by 20 * tokens.length + 19

/-- Arguments behind the first one are led by a comma. -/
theorem argumentsMore (h : Rules stop Whole Inside Adds) (tokens : List Token) :
    Whole (argumentsMore tokens) tokens := by
  cases tokens with
  | nil =>
    rw [Grammar.argumentsMore]
    exact h.pure [] []
  | cons t rest =>
    rw [Grammar.argumentsMore]
    split
    · refine h.maybe (h.behindWhole ?_ t)
      -- A comma always asks for one argument more.
      exact h.bind (h.expression rest) fun next rest' _ => h.map _ (h.argumentsMore rest')
    · exact h.pure [] _
termination_by 20 * tokens.length

end

/-! ## Parts of statements -/

/-- An expression that is terminated has a semicolon behind it. -/
theorem terminated (h : Rules stop Whole Inside Adds) (fault : SyntaxFault) (tokens : List Token) :
    Whole (terminated fault tokens) tokens := by
  rw [Grammar.terminated]
  exact h.once (h.bind (h.expression tokens) fun value rest _ =>
    h.map _ (h.expect .semi fault rest))

/-- An initial value is an equals sign and an expression, or nothing. -/
theorem initializer (h : Rules stop Whole Inside Adds) (tokens : List Token) :
    Whole (initializer tokens) tokens := by
  cases tokens with
  | nil => exact h.pure none []
  | cons t rest =>
    rw [Grammar.initializer]
    split
    · exact h.maybe (h.behindWhole (h.map _ (h.expression rest)) t)
    · exact h.pure none _

/-- A declaration of a variable is a name, an initial value and a semicolon. -/
theorem variableDeclaration (h : Rules stop Whole Inside Adds) (tokens : List Token) :
    Whole (variableDeclaration tokens) tokens := by
  rw [Grammar.variableDeclaration]
  apply h.once
  apply h.bind (h.expect .identifier .variableName tokens)
  intro name rest₁ fits₁
  apply h.bind (h.initializer rest₁)
  intro init rest₂ fits₂
  exact h.map _ (h.expect .semi .semiAfterVariable rest₂)

/-- Parameters behind the first one are led by a comma. -/
theorem parametersMore (h : Rules stop Whole Inside Adds) (tokens : List Token) :
    Whole (parametersMore tokens) tokens := by
  cases tokens with
  | nil =>
    rw [Grammar.parametersMore]
    exact h.pure [] []
  | cons t rest =>
    rw [Grammar.parametersMore]
    split
    · refine h.maybe (h.behindWhole ?_ t)
      apply h.bind (h.expect .identifier .parameterName rest)
      intro next rest' fits
      -- A comma always asks for one parameter more.
      exact h.map _ (h.parametersMore rest')
    · exact h.pure [] _
termination_by tokens.length

/-- Parameters are a name and the parameters behind it, or nothing. -/
theorem parameters (h : Rules stop Whole Inside Adds) (tokens : List Token) :
    Whole (parameters tokens) tokens := by
  rw [Grammar.parameters]
  split
  · exact h.pure [] tokens
  · apply h.maybe
    apply h.bind (h.expect .identifier .parameterName tokens)
    intro first rest fits
    exact h.map _ (h.parametersMore rest)

/-- The head of a function is its name, its parameters in parentheses, and the brace of the body. -/
theorem signature (h : Rules stop Whole Inside Adds) (tokens : List Token) :
    Whole (signature tokens) tokens := by
  rw [Grammar.signature]
  apply h.once
  -- Five steps in a row, each on what the one before has left.
  apply h.bind (h.expect .identifier .functionName tokens)
  intro name rest₁ fits₁
  apply h.bind (h.expect .lParen .parenAfterFunctionName rest₁)
  intro opening rest₂ fits₂
  apply h.bind (h.parameters rest₂)
  intro params rest₃ fits₃
  apply h.bind (h.expect .rParen .parenAfterParameters rest₃)
  intro closing rest₄ fits₄
  exact h.map _ (h.expect .lBrace .braceBeforeBody rest₄)

/-- A condition is an expression in parentheses. -/
theorem condition (h : Rules stop Whole Inside Adds) (opening closing : SyntaxFault)
    (tokens : List Token) : Whole (condition opening closing tokens) tokens := by
  rw [Grammar.condition]
  apply h.once
  apply h.bind (h.expect .lParen opening tokens)
  intro paren rest₁ fits₁
  apply h.bind (h.expression rest₁)
  intro value rest₂ fits₂
  exact h.map _ (h.expect .rParen closing rest₂)

/-- A return has a value and a semicolon, or only the semicolon. -/
theorem result (h : Rules stop Whole Inside Adds) (keyword : Token) (tokens : List Token) :
    Whole (result keyword tokens) tokens := by
  cases tokens with
  | nil => exact h.map _ (h.terminated .semiAfterReturn [])
  | cons t rest =>
    rw [Grammar.result]
    split
    · exact h.behindWhole (h.pure (Stmt.result keyword none) rest) t
    · exact h.map _ (h.terminated .semiAfterReturn (t :: rest))

/-! ## Statements -/

mutual

/-- What is read or dropped of a declaration. -/
theorem declaration (h : Rules stop Whole Inside Adds) (t : Token) (rest : List Token) :
    Adds (t :: rest) (declaration stop t rest).rest (declaration stop t rest).notes := by
  rw [Grammar.declaration]
  exact h.recover (h.declared t rest)
termination_by 10 * rest.length + 14

/-- A declaration is that of a variable or of a function, or any other statement. -/
theorem declared (h : Rules stop Whole Inside Adds) (t : Token) (rest : List Token) :
    Whole (declared stop t rest) (t :: rest) := by
  rw [Grammar.declared]
  split
  · exact h.once (h.behindWhole (h.variableDeclaration rest) t)
  · refine h.once (h.behind ?_ t)
    exact h.bindInside (h.inside (h.signature rest)) fun head rest' _ =>
      h.mapInside _ (h.block rest')
  · exact h.statement (t :: rest)
termination_by 10 * rest.length + 13

/-- A statement is told by its first token. -/
theorem statement (h : Rules stop Whole Inside Adds) (tokens : List Token) :
    Whole (statement stop tokens) tokens := by
  cases tokens with
  | nil =>
    rw [Grammar.statement]
    exact h.map _ (h.terminated .semiAfterExpression [])
  | cons t rest =>
    rw [Grammar.statement]
    split
    · exact h.once (h.behindWhole (h.map _ (h.terminated .semiAfterReadTarget rest)) t)
    · split
      · refine h.once (h.behindWhole ?_ t)
        apply h.bind (h.condition .parenAfterIf .parenAfterIfCondition rest)
        intro test rest₁ fits₁
        apply h.bind (h.statement rest₁)
        intro consequent rest₂ fits₂
        exact h.alternative test consequent rest₂
      · refine h.once (h.behindWhole ?_ t)
        apply h.bind (h.condition .parenAfterWhile .parenAfterWhileCondition rest)
        intro test rest' fits
        exact h.map _ (h.statement rest')
      · exact h.once (h.behindWhole (h.map _ (h.terminated .semiAfterValue rest)) t)
      · exact h.once (h.behindWhole (h.result t rest) t)
      · -- A block is the only statement that is read inside of braces, and its brace makes a whole
        -- of it.
        exact h.once (h.behind (h.mapInside _ (h.block rest)) t)
      · exact h.map _ (h.terminated .semiAfterExpression (t :: rest))
termination_by 10 * tokens.length + 2

/-- The other branch is a statement behind `else`, or there is none. -/
theorem alternative (h : Rules stop Whole Inside Adds) (test : Expr) (consequent : Stmt)
    (tokens : List Token) : Whole (alternative stop test consequent tokens) tokens := by
  cases tokens with
  | nil =>
    rw [Grammar.alternative]
    exact h.pure _ []
  | cons t rest =>
    rw [Grammar.alternative]
    split
    · exact h.maybe (h.behindWhole (h.map _ (h.statement rest)) t)
    · exact h.pure _ _
termination_by 10 * tokens.length

/-- A block is its declarations up to the brace, each read or recovered from. -/
theorem block (h : Rules stop Whole Inside Adds) (tokens : List Token) :
    Inside (block stop tokens) tokens := by
  cases tokens with
  | nil =>
    rw [Grammar.block]
    exact h.inside (h.fail .braceAfterBlock [])
  | cons t rest =>
    rw [Grammar.block]
    split
    · exact h.inside (h.behindWhole (h.pure [] rest) t)
    · have hfirst := h.declaration t rest
      split
      next statement? rest' notes fits heq =>
      rw [heq] at hfirst
      -- What the first declaration adds is put in front of what the others in the block give.
      exact h.within _ _ hfirst (h.block rest')
termination_by 10 * tokens.length + 5

end

/-- What is read or dropped up to the end of the tokens. -/
theorem declarations (h : Rules stop Whole Inside Adds) (tokens : List Token) :
    Adds tokens [] (declarations stop tokens).2 := by
  cases tokens with
  | nil =>
    rw [Grammar.declarations]
    exact h.nothing
  | cons t rest =>
    rw [Grammar.declarations]
    have hfirst := h.declaration t rest
    split
    next statement? rest' notes fits heq =>
    rw [heq] at hfirst
    -- Declarations have no outcome besides what they add, so the recursion is on that alone.
    exact h.trans hfirst (h.declarations rest')
termination_by tokens.length

end Rules

end Treewalk.Grammar
