import Treewalk.Proofs.Grammar.Alike
import Treewalk.Proofs.Grammar.Completeness
import Treewalk.Proofs.Grammar.Soundness

/-!
# The parser looks one token ahead

A production that stops in front of a token stops there whatever comes behind that token: on more
tokens it has the same outcome, with more tokens left (`Step.ExtendedBy`). Only a production that
has read all tokens there are might have gone on. Expressions are of this kind, since an operator
could follow. Statements are not: they end with a semicolon or a brace, and after these the only
token to look out for is `else`. `Step.Local` says both of these, with `closed` for the second.

The main statement is `Grammar.declarations_append`: tokens in which nothing is wrong can be
followed by any others that do not start with `else`, and both are read as they are on their own.
-/

namespace Treewalk

namespace Step

variable {α β : Type} {n k j m n' m' : Nat} {more : List Token} {closed : Bool}

/-- The same outcome, with more tokens left. -/
inductive ExtendedBy (more : List Token) : Step α n k → Step α n' k → Prop where
  | done {a : α} {rest : List Token} {notes : List Diagnostic} {fits : rest.length + k ≤ n}
      {fits' : (rest ++ more).length + k ≤ n'} :
      ExtendedBy more (.done a rest notes fits) (.done a (rest ++ more) notes fits')
  | stuck {fault : SyntaxFault} {rest : List Token} {notes : List Diagnostic}
      {fits : rest.length ≤ n} {fits' : (rest ++ more).length ≤ n'} :
      ExtendedBy more (.stuck fault rest notes fits) (.stuck fault (rest ++ more) notes fits')

/-- Has the step come to an end that more tokens cannot change? A closed one has as soon as there is
    a value. -/
def Settled (closed : Bool) : Step α n k → Prop
  | .done _ rest _ _ => rest ≠ [] ∨ closed = true
  | .stuck _ rest _ _ => rest ≠ []

/-- A step that has settled is extended by more tokens. -/
def Local (more : List Token) (closed : Bool) (s : Step α n k) (s' : Step α n' k) : Prop :=
  s.Settled closed → s.ExtendedBy more s'

/-- What is extended in any case is so once it has settled. -/
theorem ExtendedBy.local {s : Step α n k} {s' : Step α n' k} (h : s.ExtendedBy more s') :
    s.Local more closed s' := fun _ => h

/-- What is settled as an open step is settled as a closed one. -/
theorem Local.open {s : Step α n k} {s' : Step α n' k} (h : s.Local more true s') :
    s.Local more false s' := by
  intro hsettled
  cases s with
  | done a rest notes fits => exact h (.inr rfl)
  | stuck fault rest notes fits => exact h hsettled

/-- Without tokens, a step that has to read one is stuck, and more tokens may help. -/
theorem not_settled_nil (s : Step α 0 (k + 1)) : ¬ s.Settled closed := by
  intro hsettled
  cases s with
  | done a rest notes fits => omega
  | stuck fault rest notes fits => exact hsettled (List.length_eq_zero_iff.1 (Nat.le_zero.1 fits))

/-- Without tokens, no open step has settled. -/
theorem not_settled_nil_open (s : Step α 0 k) : ¬ s.Settled false := by
  intro hsettled
  cases s with
  | done a rest notes fits =>
    have hnil : rest = [] := List.length_eq_zero_iff.1 (by omega)
    exact hsettled.elim (fun hne => hne hnil) fun hclosed => nomatch hclosed
  | stuck fault rest notes fits => exact hsettled (List.length_eq_zero_iff.1 (Nat.le_zero.1 fits))

/-- A step that has to read a token does not settle without any, so nothing is to be shown. -/
theorem local_nil {s : Step α 0 (k + 1)} {s' : Step α n' (k + 1)} : s.Local more closed s' :=
  fun hsettled => absurd hsettled (not_settled_nil s)

/-- An open step does not settle without tokens, so nothing is to be shown. -/
theorem local_nil_open {s : Step α 0 k} {s' : Step α n' k} : s.Local more false s' :=
  fun hsettled => absurd hsettled (not_settled_nil_open s)

/-! ### Putting steps together -/

section

variable {next : α → (rest : List Token) → rest.length + k ≤ n → Step β rest.length j}
  {next' : α → (rest : List Token) → rest.length + k ≤ n' → Step β rest.length j}

/-- Behind a value, it is up to the second step whether both have settled. -/
theorem settled_bind_done (a : α) (rest : List Token) (notes : List Diagnostic)
    (fits : rest.length + k ≤ n) :
    ((done a rest notes fits).bind next).Settled closed ↔ (next a rest fits).Settled closed := by
  rw [Step.bind]
  cases next a rest fits <;> exact Iff.rfl

/-- Behind a value, the outcome of both steps together is extended as that of the second one is. -/
theorem extendedBy_bind_done {a : α} {rest : List Token} {notes : List Diagnostic}
    {fits : rest.length + k ≤ n} {fits' : (rest ++ more).length + k ≤ n'}
    (h : (next a rest fits).ExtendedBy more (next' a (rest ++ more) fits')) :
    ((done a rest notes fits).bind next).ExtendedBy more
      ((done a (rest ++ more) notes fits').bind next') := by
  rw [Step.bind, Step.bind]
  generalize next a rest fits = second, next' a (rest ++ more) fits' = second' at h
  cases h with
  | done => exact .done
  | stuck => exact .stuck

/-- Behind a closed step comes any other one. -/
theorem Local.bind {s : Step α n k} {s' : Step α n' k} (h : s.Local more true s')
    (hnext : ∀ a rest fits fits',
      (next a rest fits).Local more closed (next' a (rest ++ more) fits')) :
    (s.bind next).Local more closed (s'.bind next') := by
  intro hsettled
  cases s with
  | stuck fault rest notes fits =>
    cases h hsettled
    exact .stuck
  | done a rest notes fits =>
    cases h (.inr rfl)
    exact extendedBy_bind_done (hnext a rest
      fits _ ((settled_bind_done a rest notes fits).1 hsettled))

/-- Behind an open step has to come one that does not settle without tokens: then there are tokens
    left in between. -/
theorem Local.bind_open {s : Step α n k} {s' : Step α n' k} (h : s.Local more false s')
    (hempty : ∀ a fits, ¬ (next a [] fits).Settled closed)
    (hnext : ∀ a rest fits fits',
      (next a rest fits).Local more closed (next' a (rest ++ more) fits')) :
    (s.bind next).Local more closed (s'.bind next') := by
  intro hsettled
  cases s with
  | stuck fault rest notes fits =>
    cases h hsettled
    exact .stuck
  | done a rest notes fits =>
    have hsecond := (settled_bind_done a rest notes fits).1 hsettled
    -- Had the first step left nothing, the second one would have started without tokens, and so
    -- would not have settled.
    have hrest : rest ≠ [] := by
      rintro rfl
      exact hempty a fits hsecond
    cases h (.inl hrest)
    exact extendedBy_bind_done (hnext a rest fits _ hsecond)

end

/-- What keeps whether a step has settled, and how it is extended, keeps it local. -/
theorem Local.congr {s : Step α n k} {s' : Step α n' k} {t : Step β m j} {t' : Step β m' j}
    (h : s.Local more closed s') (hsettled : t.Settled closed → s.Settled closed)
    (hextended : s.ExtendedBy more s' → t.ExtendedBy more t') : t.Local more closed t' :=
  fun ht => hextended (h (hsettled ht))

/-- Mapping the value keeps a step local. -/
theorem Local.map {s : Step α n k} {s' : Step α n' k} (g : α → β) (h : s.Local more closed s') :
    (s.map g).Local more closed (s'.map g) := by
  apply h.congr
  · cases s <;> exact id
  · rintro (_ | _) <;> constructor

/-- What is local does not depend on how many tokens are known to be read. -/
theorem Local.maybe {s : Step α n k} {s' : Step α n' k} (h : s.Local more closed s') :
    s.maybe.Local more closed s'.maybe := by
  apply h.congr
  · cases s <;> exact id
  · rintro (_ | _) <;> constructor

/-- Nor does it if one token is known to be read. -/
theorem Local.once {s : Step α n (k + 1)} {s' : Step α n' (k + 1)} (h : s.Local more closed s') :
    s.once.Local more closed s'.once := by
  apply h.congr
  · cases s <;> exact id
  · rintro (_ | _) <;> constructor

/-- Counting a step among more tokens keeps it local. -/
theorem Local.within {s : Step α n k} {s' : Step α n' k} (h : s.Local more closed s')
    (hm : n + j ≤ m) (hm' : n' + j ≤ m') : (s.within hm).Local more closed (s'.within hm') := by
  apply h.congr
  · cases s <;> exact id
  · rintro (_ | _) <;> constructor

/-- Reading a token in front keeps a step local. -/
theorem Local.behind {tokens tokens' : List Token} {s : Step α tokens.length k}
    {s' : Step α tokens'.length k}
    (h : s.Local more closed s') (t : Token) : (s.behind t).Local more closed (s'.behind t) :=
      h.within _ _

/-- A note behind a step keeps it local. -/
theorem Local.note {s : Step α n k} {s' : Step α n' k} (h : s.Local more closed s')
    (d : Diagnostic) : (s.note d).Local more closed (s'.note d) := by
  apply h.congr
  · cases s <;> exact id
  · rintro (_ | _) <;> constructor

/-- Notes in front of those of a step keep it local. -/
theorem Local.precede {s : Step α n k} {s' : Step α n' k} (h : s.Local more closed s')
    (earlier : List Diagnostic) : (s.precede earlier).Local more closed (s'.precede earlier) := by
  apply h.congr
  · cases s <;> exact id
  · rintro (_ | _) <;> constructor

/-! ### Single tokens -/

/-- A step that is done at once leaves more tokens if there are more. -/
theorem extendedBy_pure (a : α) (tokens : List Token) :
    (pure a tokens).ExtendedBy more (pure a (tokens ++ more)) := .done

/-- A step that fails at once is stuck in front of more tokens if there are more. -/
theorem extendedBy_fail (fault : SyntaxFault) (tokens : List Token) :
    (fail fault tokens : Step α tokens.length k).ExtendedBy more
      (fail fault (tokens ++ more) : Step α (tokens ++ more).length k) := .stuck

/-- An expected token is the next one, or it is missing, whatever comes behind. -/
theorem local_expect (kind : Kind) (fault : SyntaxFault) (tokens : List Token) :
    (expect kind fault tokens).Local more closed (expect kind fault (tokens ++ more)) := by
  cases tokens with
  | nil => exact local_nil
  | cons t rest =>
    rw [List.cons_append, expect, expect]
    split
    · exact ExtendedBy.local .done
    · exact ExtendedBy.local .stuck

end Step

namespace Grammar

open Step

variable {more : List Token}

/-! ## Expressions -/

/-- Checking the target of an assignment keeps its value local. -/
theorem assignTo_local {n n' k : Nat} (target : Expr) (equals : Token) {closed : Bool}
    {value : Step Expr n k} {value' : Step Expr n' k} (h : value.Local more closed value') :
    (assignTo target equals value).Local more closed (assignTo target equals value') := by
  cases target with
  | name token => exact h.map _
  | index object position bracket => exact h.map _
  | _ => exact (h.map _).note _

mutual

/-- Behind an expression an operator could follow, so an expression is open. -/
theorem expression_local (tokens : List Token) :
    (expression tokens).Local more false (expression (tokens ++ more)) := by
  rw [expression, expression]
  apply Local.bind_open (chain_local .or tokens) fun target fits => not_settled_nil_open _
  intro target rest fits fits'
  exact assignment_local target rest
termination_by 20 * tokens.length + 18
decreasing_by
  all_goals
    have hdepth := Level.or.depth_le
    omega

/-- An assignment goes on with an equals sign, so it is open. -/
theorem assignment_local (target : Expr) (tokens : List Token) :
    (assignment target tokens).Local more false (assignment target (tokens ++ more)) := by
  cases tokens with
  | nil => exact local_nil_open
  | cons t rest =>
    rw [List.cons_append, assignment, assignment]
    split
    · exact (assignTo_local target t ((expression_local rest).behind t)).maybe
    · exact (extendedBy_pure target (t :: rest)).local
termination_by 20 * tokens.length

/-- A chain goes on with a connective, so it is open. -/
theorem chain_local (l : Level) (tokens : List Token) :
    (chain l tokens).Local more false (chain l (tokens ++ more)) := by
  rw [chain, chain]
  apply Local.bind_open (operand_local l tokens) fun left fits => not_settled_nil_open _
  intro left rest fits fits'
  exact chainMore_local l left rest
termination_by 20 * tokens.length + 5 + 2 * l.depth

/-- An operand is as open as what it is made of. -/
theorem operand_local (l : Level) (tokens : List Token) :
    (operand l tokens).Local more false (operand l (tokens ++ more)) := by
  rw [operand, operand]
  split
  · next tighter htighter =>
    have hdepth := Level.depth_of_tighter? htighter
    exact chain_local tighter tokens
  · exact unary_local tokens
termination_by 20 * tokens.length + 4 + 2 * l.depth

/-- The rest of a chain is over in front of the first token that is no connective. -/
theorem chainMore_local (l : Level) (left : Expr) (tokens : List Token) :
    (chainMore l left tokens).Local more false (chainMore l left (tokens ++ more)) := by
  cases tokens with
  | nil => exact local_nil_open
  | cons t rest =>
    rw [List.cons_append, chainMore, chainMore]
    split
    · next op _ =>
      apply Local.maybe
      apply Local.behind
      -- The operand is open, but so is what comes behind it: if no tokens are left between them,
      -- neither has settled.
      apply Local.bind_open (operand_local l rest) fun right fits => not_settled_nil_open _
      intro right rest' fits fits'
      exact chainMore_local l (op.join left right t.span) rest'
    · exact (extendedBy_pure left (t :: rest)).local
termination_by 20 * tokens.length
decreasing_by
  all_goals
    have hdepth := l.depth_le
    simp only [List.length_cons] at *
    omega

/-- A unary expression is as open as the call at its end. -/
theorem unary_local (tokens : List Token) :
    (unary tokens).Local more false (unary (tokens ++ more)) := by
  cases tokens with
  | nil => exact local_nil
  | cons t rest =>
    rw [List.cons_append, unary, unary]
    split
    · exact (((unary_local rest).map _).behind t).once
    · exact call_local (t :: rest)
termination_by 20 * tokens.length + 3

/-- A call goes on with a bracket, so it is open. -/
theorem call_local (tokens : List Token) :
    (call tokens).Local more false (call (tokens ++ more)) := by
  rw [call, call]
  apply Local.bind_open (primary_local tokens).open fun callee fits => not_settled_nil_open _
  intro callee rest fits fits'
  exact callMore_local callee rest
termination_by 20 * tokens.length + 2

/-- What follows a callee is over in front of the first token that is no opening bracket. -/
theorem callMore_local (callee : Expr) (tokens : List Token) :
    (callMore callee tokens).Local more false (callMore callee (tokens ++ more)) := by
  cases tokens with
  | nil => exact local_nil_open
  | cons t rest =>
    rw [List.cons_append, callMore, callMore]
    split
    · apply Local.maybe
      apply Local.behind
      -- The arguments are open, and without tokens behind them the closing bracket cannot be read.
      apply Local.bind_open (arguments_local .rParen rest) fun args fits => not_settled_nil _
      intro args rest₁ fits₁ fits₁'
      apply Local.bind (local_expect .rParen .parenAfterArguments rest₁)
      intro paren rest₂ fits₂ fits₂'
      exact callMore_local (.call callee args paren) rest₂
    · split
      · apply Local.maybe
        apply Local.behind
        apply Local.bind_open (expression_local rest) fun position fits => not_settled_nil _
        intro position rest₁ fits₁ fits₁'
        apply Local.bind (local_expect .rBracket .bracketAfterIndex rest₁)
        intro bracket rest₂ fits₂ fits₂'
        exact callMore_local (.index callee position bracket) rest₂
      · exact (extendedBy_pure callee (t :: rest)).local
termination_by 20 * tokens.length

/-- A primary ends with a token of its own. -/
theorem primary_local (tokens : List Token) :
    (primary tokens).Local more true (primary (tokens ++ more)) := by
  cases tokens with
  | nil => exact local_nil
  | cons t rest =>
    rw [List.cons_append, primary, primary]
    split
    · exact (extendedBy_pure _ rest).local.behind t
    · split
      · exact (extendedBy_pure _ rest).local.behind t
      · apply Local.once
        apply Local.behind
        -- What is enclosed is open, and the closing bracket behind it closes the whole.
        apply Local.bind_open (expression_local rest) fun inner fits => not_settled_nil _
        intro inner rest' fits fits'
        exact (local_expect .rParen .parenAfterExpression rest').map _
      · apply Local.once
        apply Local.behind
        apply Local.bind_open (arguments_local .rBracket rest) fun elements fits =>
          not_settled_nil _
        intro elements rest' fits fits'
        exact (local_expect .rBracket .bracketAfterElements rest').map _
      · exact (extendedBy_fail .expression (t :: rest)).local
termination_by 20 * tokens.length + 1

/-- Arguments go on with a comma, so they are open. -/
theorem arguments_local (close : Kind) (tokens : List Token) :
    (arguments close tokens).Local more false (arguments close (tokens ++ more)) := by
  cases tokens with
  | nil => exact local_nil_open
  | cons t rest =>
    -- There is a first token, so both ask the same one whether it closes the arguments.
    have hstarts' : starts close (t :: rest ++ more) = starts close (t :: rest) := rfl
    rw [arguments, arguments, hstarts']
    by_cases hstarts : starts close (t :: rest) = true
    · rw [if_pos hstarts, if_pos hstarts]
      exact (extendedBy_pure [] (t :: rest)).local
    · rw [if_neg hstarts, if_neg hstarts]
      apply Local.maybe
      apply Local.bind_open (expression_local (t :: rest)) fun first fits => not_settled_nil_open _
      intro first rest' fits fits'
      have hlength : rest'.length ≤ rest.length := Nat.le_of_succ_le_succ fits
      exact (argumentsMore_local rest').map _
termination_by 20 * tokens.length + 19

/-- Arguments behind the first one are over in front of the first token that is no comma. -/
theorem argumentsMore_local (tokens : List Token) :
    (argumentsMore tokens).Local more false (argumentsMore (tokens ++ more)) := by
  cases tokens with
  | nil => exact local_nil_open
  | cons t rest =>
    rw [List.cons_append, argumentsMore, argumentsMore]
    split
    · apply Local.maybe
      apply Local.behind
      -- As for a chain, with a comma in place of a connective.
      apply Local.bind_open (expression_local rest) fun next fits => not_settled_nil_open _
      intro next rest' fits fits'
      exact (argumentsMore_local rest').map _
    · exact (extendedBy_pure [] (t :: rest)).local
termination_by 20 * tokens.length

end

/-! ## Parts of statements -/

/-- The semicolon closes the expression in front of it. -/
theorem terminated_local (fault : SyntaxFault) (tokens : List Token) :
    (terminated fault tokens).Local more true (terminated fault (tokens ++ more)) := by
  rw [terminated, terminated]
  apply Local.once
  apply Local.bind_open (expression_local tokens) fun value fits => not_settled_nil _
  intro value rest fits fits'
  exact (local_expect .semi fault rest).map _

/-- An initial value ends with an expression, so it is open. -/
theorem initializer_local (tokens : List Token) :
    (initializer tokens).Local more false (initializer (tokens ++ more)) := by
  cases tokens with
  | nil => exact local_nil_open
  | cons t rest =>
    rw [List.cons_append, initializer, initializer]
    split
    · exact (((expression_local rest).map _).behind t).maybe
    · exact (extendedBy_pure none (t :: rest)).local

/-- The semicolon closes a declaration of a variable. -/
theorem variableDeclaration_local (tokens : List Token) :
    (variableDeclaration tokens).Local more true (variableDeclaration (tokens ++ more)) := by
  rw [variableDeclaration, variableDeclaration]
  apply Local.once
  apply Local.bind (local_expect .identifier .variableName tokens)
  intro name rest₁ fits₁ fits₁'
  apply Local.bind_open (initializer_local rest₁) fun init fits => not_settled_nil _
  intro init rest₂ fits₂ fits₂'
  exact (local_expect .semi .semiAfterVariable rest₂).map _

/-- Parameters behind the first one are over in front of the first token that is no comma. -/
theorem parametersMore_local (tokens : List Token) :
    (parametersMore tokens).Local more false (parametersMore (tokens ++ more)) := by
  cases tokens with
  | nil => exact local_nil_open
  | cons t rest =>
    rw [List.cons_append, parametersMore, parametersMore]
    split
    · apply Local.maybe
      apply Local.behind
      -- A name is closed, other than an argument: nothing can follow that would belong to it.
      apply Local.bind (local_expect .identifier .parameterName rest)
      intro next rest' fits fits'
      exact (parametersMore_local rest').map _
    · exact (extendedBy_pure [] (t :: rest)).local
termination_by tokens.length

/-- Parameters go on with a comma, so they are open. -/
theorem parameters_local (tokens : List Token) :
    (parameters tokens).Local more false (parameters (tokens ++ more)) := by
  cases tokens with
  | nil => exact local_nil_open
  | cons t rest =>
    -- There is a first token, so both ask the same one whether there are any parameters.
    have hstarts' : starts .rParen (t :: rest ++ more) = starts .rParen (t :: rest) := rfl
    rw [parameters, parameters, hstarts']
    by_cases hstarts : starts .rParen (t :: rest) = true
    · rw [if_pos hstarts, if_pos hstarts]
      exact (extendedBy_pure [] (t :: rest)).local
    · rw [if_neg hstarts, if_neg hstarts]
      apply Local.maybe
      apply Local.bind (local_expect .identifier .parameterName (t :: rest))
      intro first rest' fits fits'
      exact (parametersMore_local rest').map _

/-- The opening brace closes the head of a function. -/
theorem signature_local (tokens : List Token) :
    (signature tokens).Local more true (signature (tokens ++ more)) := by
  rw [signature, signature]
  apply Local.once
  apply Local.bind (local_expect .identifier .functionName tokens)
  intro name rest₁ fits₁ fits₁'
  apply Local.bind (local_expect .lParen .parenAfterFunctionName rest₁)
  intro opening rest₂ fits₂ fits₂'
  -- Only the parameters are open here, and the closing parenthesis has to follow them.
  apply Local.bind_open (parameters_local rest₂) fun params fits => not_settled_nil _
  intro params rest₃ fits₃ fits₃'
  apply Local.bind (local_expect .rParen .parenAfterParameters rest₃)
  intro closing rest₄ fits₄ fits₄'
  exact (local_expect .lBrace .braceBeforeBody rest₄).map _

/-- The closing parenthesis closes a condition. -/
theorem condition_local (opening closing : SyntaxFault) (tokens : List Token) :
    (condition opening closing tokens).Local more true
      (condition opening closing (tokens ++ more)) := by
  rw [condition, condition]
  apply Local.once
  apply Local.bind (local_expect .lParen opening tokens)
  intro paren rest₁ fits₁ fits₁'
  apply Local.bind_open (expression_local rest₁) fun value fits => not_settled_nil _
  intro value rest₂ fits₂ fits₂'
  exact (local_expect .rParen closing rest₂).map _

/-- The semicolon closes a return. -/
theorem result_local (keyword : Token) (tokens : List Token) :
    (result keyword tokens).Local more true (result keyword (tokens ++ more)) := by
  cases tokens with
  | nil => exact local_nil
  | cons t rest =>
    rw [List.cons_append, result, result]
    split
    · exact (extendedBy_pure _ rest).local.behind t
    · exact (terminated_local .semiAfterReturn (t :: rest)).map _

/-! ## Recovery -/

/-- A place to go on from that is found is found whatever comes behind it. -/
theorem resumeBehind_append (previous : Token) (tokens : List Token)
    (h : resumeBehind previous tokens ≠ []) :
    resumeBehind previous (tokens ++ more) = resumeBehind previous tokens ++ more := by
  induction tokens generalizing previous with
  | nil => exact absurd rfl h
  | cons t rest ih =>
    rw [resumeBehind] at h ⊢
    rw [List.cons_append, resumeBehind]
    split
    · rfl
    · next hgo =>
      rw [if_neg hgo] at h
      exact ih t h

/-- Recovery that has found a place to resume at does not see what comes behind it. -/
theorem resume_append (tokens : List Token) (h : resume tokens ≠ []) :
    resume (tokens ++ more) = resume tokens ++ more := by
  cases tokens with
  | nil => exact absurd rfl h
  | cons t rest => exact resumeBehind_append t rest h

/-- The same declaration, with more tokens left. -/
structure Recovered.ExtendedBy (more : List Token) {n n' : Nat} (r : Recovered n)
    (r' : Recovered n') : Prop where
  statement? : r'.statement? = r.statement?
  rest : r'.rest = r.rest ++ more
  notes : r'.notes = r.notes

/-- A declaration that was read, or recovered from in front of a token, is so with more tokens. -/
theorem recover_extendedBy {n n' : Nat} (stop stop' : Token) (h : 0 < n) (h' : 0 < n')
    {s : Step Stmt n 1} {s' : Step Stmt n' 1} (hstep : s.Local more true s')
    (hsettled : (recover stop h s).statement? ≠ none ∨ (recover stop h s).rest ≠ []) :
    (recover stop h s).ExtendedBy more (recover stop' h' s') := by
  cases s with
  | done statement rest notes fits =>
    cases hstep (.inr rfl)
    exact ⟨rfl, rfl, rfl⟩
  | stuck fault rest notes fits =>
    have hresume : resume rest ≠ [] := hsettled.resolve_left fun hsome => hsome rfl
    have hrest : rest ≠ [] := by
      rintro rfl
      exact hresume rfl
    cases hstep hrest
    -- The first token that is left is to blame, and not the end.
    obtain ⟨t, others, rfl⟩ := List.exists_cons_of_ne_nil hrest
    exact ⟨rfl, resume_append _ hresume, rfl⟩

/-! ## Statements -/

section

variable (stop stop' : Token)

mutual

/-- A declaration that is read, or recovered from in front of some token, is the same with more
    tokens behind it. -/
theorem declaration_extendedBy (hmore : starts .elseWord more = false) (t : Token)
    (rest : List Token)
    (hsettled : (declaration stop t rest).statement? ≠ none ∨ (declaration stop t rest).rest ≠ []) :
    (declaration stop t rest).ExtendedBy more (declaration stop' t (rest ++ more)) := by
  rw [declaration] at hsettled ⊢
  rw [declaration]
  exact recover_extendedBy stop stop' _ _ (declared_local hmore t rest) hsettled
termination_by 10 * rest.length + 14

/-- A declaration is closed if what comes behind does not start with `else`. -/
theorem declared_local (hmore : starts .elseWord more = false) (t : Token) (rest : List Token) :
    (declared stop t rest).Local more true (declared stop' t (rest ++ more)) := by
  rw [declared, declared]
  split
  · exact ((variableDeclaration_local rest).behind t).once
  · apply Local.once
    apply Local.behind
    apply Local.bind (signature_local rest)
    intro head rest' fits fits'
    exact (block_local hmore rest').map _
  · exact statement_local hmore (t :: rest)
termination_by 10 * rest.length + 13

/-- A statement is closed if what comes behind does not start with `else`. -/
theorem statement_local (hmore : starts .elseWord more = false) (tokens : List Token) :
    (statement stop tokens).Local more true (statement stop' (tokens ++ more)) := by
  cases tokens with
  | nil => exact local_nil
  | cons t rest =>
    rw [List.cons_append, statement, statement]
    -- All statements end with a semicolon, a brace or another statement, but for the `if` that may
    -- still get its `else`.
    split
    · exact (((terminated_local _ rest).map _).behind t).once
    · split
      · apply Local.once
        apply Local.behind
        apply Local.bind (condition_local _ _ rest)
        intro test rest₁ fits₁ fits₁'
        apply Local.bind (statement_local hmore rest₁)
        intro consequent rest₂ fits₂ fits₂'
        exact alternative_local hmore test consequent rest₂
      · apply Local.once
        apply Local.behind
        apply Local.bind (condition_local _ _ rest)
        intro test rest₁ fits₁ fits₁'
        exact (statement_local hmore rest₁).map _
      · exact (((terminated_local _ rest).map _).behind t).once
      · exact ((result_local t rest).behind t).once
      · exact (((block_local hmore rest).map _).behind t).once
      · exact (terminated_local _ (t :: rest)).map _
termination_by 10 * tokens.length + 2

/-- Without `else` behind it, a condition has no other branch, however many tokens follow. -/
theorem alternative_local (hmore : starts .elseWord more = false) (test : Expr) (consequent : Stmt)
    (tokens : List Token) :
    (alternative stop test consequent tokens).Local more true
      (alternative stop' test consequent (tokens ++ more)) := by
  cases tokens with
  | nil =>
    -- Here the first of the other tokens is looked at, and found not to be an `else`.
    have hfollowed : alternative stop' test consequent more =
        .pure (.ifThen test consequent) more := by
      cases more with
      | nil => rw [alternative]
      | cons t rest =>
        have helse : ¬ t.kind = .elseWord := by simpa [starts] using hmore
        rw [alternative, if_neg helse]
    rw [List.nil_append, hfollowed, alternative]
    exact (extendedBy_pure _ []).local
  | cons t rest =>
    rw [List.cons_append, alternative, alternative]
    split
    · exact (((statement_local hmore rest).map _).behind t).maybe
    · exact (extendedBy_pure _ (t :: rest)).local
termination_by 10 * tokens.length

/-- A block is closed by its brace. -/
theorem block_local (hmore : starts .elseWord more = false) (tokens : List Token) :
    (block stop tokens).Local more true (block stop' (tokens ++ more)) := by
  cases tokens with
  | nil => exact local_nil
  | cons t rest =>
    rw [List.cons_append, block, block]
    split
    · exact (extendedBy_pure [] rest).local.behind t
    · have hfirst := declaration_extendedBy hmore t rest
      have hlength := (declaration stop t rest).fits
      generalize declaration stop t rest = r, declaration stop' t (rest ++ more) =
        r' at hfirst hlength
      obtain ⟨statement?, rest₁, notes, fits⟩ := r
      obtain ⟨statement?', rest₁', notes', fits'⟩ := r'
      by_cases hsettled : statement? ≠ none ∨ rest₁ ≠ []
      · obtain ⟨hstatement, hrest, hnotes⟩ := hfirst hsettled
        dsimp only at hstatement hrest hnotes
        subst hstatement hrest hnotes
        exact (((block_local hmore rest₁).map _).precede _).within _ _
      · -- The declaration was given up at the end, so the block has not ended.
        obtain rfl : rest₁ = [] := by
          by_contra hne
          exact hsettled (.inr hne)
        intro hblock
        dsimp only at hblock
        rw [block] at hblock
        exact absurd rfl hblock
termination_by 10 * tokens.length + 5

end

/-! ## Tokens in which nothing is wrong -/

/-- Nothing is noted about a declaration only if it was read. -/
theorem statement?_ne_none_of_notes (t : Token) (rest : List Token)
    (h : (declaration stop t rest).notes = []) : (declaration stop t rest).statement? ≠ none := by
  rw [declaration] at h ⊢
  cases hstep : declared stop t rest with
  | done statement rest' notes fits => exact Option.some_ne_none statement
  | stuck fault rest' notes fits =>
    rw [hstep] at h
    exact absurd h (List.append_ne_nil_of_right_ne_nil _ (List.cons_ne_nil _ _))

/-- Tokens in which nothing is wrong, and any others behind them that do not start with `else`, are
    read as they are on their own. -/
theorem declarations_append (hmore : starts .elseWord more = false) (tokens : List Token)
    (hclean : (declarations stop tokens).2 = []) :
    declarations stop' (tokens ++ more) =
      ((declarations stop tokens).1 ++ (declarations stop' more).1,
        (declarations stop' more).2) := by
  cases tokens with
  | nil =>
    rw [List.nil_append, declarations]
    rfl
  | cons t rest =>
    rw [declarations_cons, List.append_eq_nil_iff] at hclean
    obtain ⟨hnotes, hothers⟩ := hclean
    -- Without a note the first declaration has been read, and not recovered from, so it has
    -- settled.
    have hsome := statement?_ne_none_of_notes stop t rest hnotes
    have hfirst := declaration_extendedBy stop stop' hmore t rest (.inl hsome)
    have hlength := (declaration stop t rest).fits
    rw [List.cons_append, declarations_cons, declarations_cons, hfirst.statement?, hfirst.notes,
      hfirst.rest, declarations_append hmore _ hothers, hnotes, List.append_assoc, List.nil_append]
termination_by tokens.length

/-- Where nothing is wrong, no token is to blame for it. -/
theorem declarations_of_clean (tokens : List Token) (hclean : (declarations stop tokens).2 = []) :
    declarations stop' tokens = declarations stop tokens := by
  have hempty : starts .elseWord [] = false := rfl
  have h := declarations_append stop stop' hempty tokens hclean
  rw [List.append_nil, declarations, List.append_nil] at h
  rw [h, ← hclean]

/-- Tokens in which nothing is wrong do not start with `else`. -/
theorem starts_else_of_clean (tokens : List Token) (hclean : (declarations stop tokens).2 = []) :
    starts .elseWord tokens = false := by
  obtain ⟨taken, kept, htaken, -, hspells, hnotes⟩ := declarations_accounts stop tokens
  have hkept := hnotes.1 hclean
  rw [List.append_nil] at htaken
  rw [hkept, ← htaken] at hspells
  have hempty : starts .elseWord [] = false := rfl
  have hstarts := not_starts_else hspells hempty
  rwa [List.append_nil] at hstarts

end

end Grammar

end Treewalk
