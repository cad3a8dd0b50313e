import Treewalk.Grammar.Statement
import Treewalk.Proofs.Tree.Like

/-!
# The parser does not see where tokens are

On lists of matching tokens the parser takes the same way: it reads trees that are like each other,
gets stuck in front of matching tokens, and notes the same faults at matching tokens. `Step.Alike`
says this of two steps. It is closed under all ways in which productions are put together, so a
production's proof goes along its text.

The main statement is `Matching.ofTokens_alike`.
-/

namespace Treewalk

namespace Matching

/-- Diagnostics about the same fault at matching tokens. -/
inductive Note (c : Matching) : Diagnostic → Diagnostic → Prop where
  | about {t t' : Token} (fault : SyntaxFault) (h : c.token t t') :
      Note c (.syntactic t fault) (.syntactic t' fault)

end Matching

namespace Step

variable {α β γ δ : Type} {n k j m n' m' : Nat} {c : Matching}

/-- Steps that read related values, or are stuck with the same fault, and leave matching tokens and
    notes. -/
inductive Alike (c : Matching) (r : α → β → Prop) : Step α n k → Step β n' k → Prop where
  | done {a : α} {b : β} {rest rest' : List Token} {notes notes' : List Diagnostic}
      {fits : rest.length + k ≤ n} {fits' : rest'.length + k ≤ n'} (hvalue : r a b)
      (hrest : List.Forall₂ c.token rest rest') (hnotes : List.Forall₂ c.Note notes notes') :
      Alike c r (.done a rest notes fits) (.done b rest' notes' fits')
  | stuck (fault : SyntaxFault) {rest rest' : List Token} {notes notes' : List Diagnostic}
      {fits : rest.length ≤ n} {fits' : rest'.length ≤ n'}
      (hrest : List.Forall₂ c.token rest rest') (hnotes : List.Forall₂ c.Note notes notes') :
      Alike c r (.stuck fault rest notes fits) (.stuck fault rest' notes' fits')

variable {r : α → β → Prop} {q : γ → δ → Prop} {tokens tokens' : List Token}

/-- Steps that read nothing are alike if their values and the tokens in front of them are. -/
theorem Alike.pure {a : α} {b : β} (h : r a b) (htokens : List.Forall₂ c.token tokens tokens') :
    Alike c r (pure a tokens) (pure b tokens') := .done h htokens .nil

/-- Steps that are stuck in front of alike tokens are alike. -/
theorem Alike.fail (fault : SyntaxFault) (htokens : List.Forall₂ c.token tokens tokens') :
    Alike c r (fail fault tokens : Step α tokens.length k)
      (fail fault tokens' : Step β tokens'.length k) :=
  .stuck fault htokens .nil

/-- Steps are alike if their first parts are and what follows these is, whatever values they
    have. -/
theorem Alike.bind {s : Step α n k} {s' : Step β n' k}
    {next : α → (rest : List Token) → rest.length + k ≤ n → Step γ rest.length j}
    {next' : β → (rest : List Token) → rest.length + k ≤ n' → Step δ rest.length j}
    (h : s.Alike c r s')
    (hnext : ∀ {a b rest rest' fits fits'}, r a b → List.Forall₂ c.token rest rest' →
      (next a rest fits).Alike c q (next' b rest' fits')) :
    (s.bind next).Alike c q (s'.bind next') := by
  cases h with
  | stuck fault hrest hnotes => exact .stuck fault hrest hnotes
  | @done a b rest rest' notes notes' fits fits' hvalue hrest hnotes =>
    have hstep : (next a rest fits).Alike c q (next' b rest' fits') := hnext hvalue hrest
    rw [Step.bind, Step.bind]
    generalize next a rest fits = second, next' b rest' fits' = second' at hstep
    cases hstep with
    | done hvalue' hrest' hnotes' => exact .done hvalue' hrest' (List.rel_append hnotes hnotes')
    | stuck fault hrest' hnotes' => exact .stuck fault hrest' (List.rel_append hnotes hnotes')

/-- Alike steps stay alike when related functions are applied to their values. -/
theorem Alike.map {s : Step α n k} {s' : Step β n' k} {f : α → γ} {g : β → δ} (h : s.Alike c r s')
    (hmap : ∀ {a b}, r a b → q (f a) (g b)) : (s.map f).Alike c q (s'.map g) := by
  cases h with
  | done hvalue hrest hnotes => exact .done (hmap hvalue) hrest hnotes
  | stuck fault hrest hnotes => exact .stuck fault hrest hnotes

/-- Alike steps stay alike when their bounds are given up. -/
theorem Alike.maybe {s : Step α n k} {s' : Step β n' k} (h : s.Alike c r s') :
    s.maybe.Alike c r s'.maybe := by
  cases h with
  | done hvalue hrest hnotes => exact .done hvalue hrest hnotes
  | stuck fault hrest hnotes => exact .stuck fault hrest hnotes

/-- Alike steps stay alike when their bounds are brought down to a single token. -/
theorem Alike.once {s : Step α n (k + 1)} {s' : Step β n' (k + 1)} (h : s.Alike c r s') :
    s.once.Alike c r s'.once := by
  cases h with
  | done hvalue hrest hnotes => exact .done hvalue hrest hnotes
  | stuck fault hrest hnotes => exact .stuck fault hrest hnotes

/-- Alike steps stay alike when their bounds are widened. -/
theorem Alike.within {s : Step α n k} {s' : Step β n' k} (h : s.Alike c r s') (hm : n + j ≤ m)
    (hm' : n' + j ≤ m') : (s.within hm).Alike c r (s'.within hm') := by
  cases h with
  | done hvalue hrest hnotes => exact .done hvalue hrest hnotes
  | stuck fault hrest hnotes => exact .stuck fault hrest hnotes

/-- Alike steps stay alike behind another token. -/
theorem Alike.behind {s : Step α tokens.length k} {s' : Step β tokens'.length k}
    (h : s.Alike c r s') (t t' : Token) : (s.behind t).Alike c r (s'.behind t') := h.within _ _

/-- Alike steps stay alike when alike diagnostics are noted. -/
theorem Alike.note {s : Step α n k} {s' : Step β n' k} (h : s.Alike c r s') {d d' : Diagnostic}
    (hnote : c.Note d d') : (s.note d).Alike c r (s'.note d') := by
  cases h with
  | done hvalue hrest hnotes => exact .done hvalue hrest (List.rel_append hnotes (.cons hnote .nil))
  | stuck fault hrest hnotes => exact .stuck fault hrest hnotes

/-- Alike steps stay alike when alike diagnostics are put in front of theirs. -/
theorem Alike.precede {s : Step α n k} {s' : Step β n' k} (h : s.Alike c r s')
    {earlier earlier' : List Diagnostic} (hearlier : List.Forall₂ c.Note earlier earlier') :
    (s.precede earlier).Alike c r (s'.precede earlier') := by
  cases h with
  | done hvalue hrest hnotes => exact .done hvalue hrest (List.rel_append hearlier hnotes)
  | stuck fault hrest hnotes => exact .stuck fault hrest (List.rel_append hearlier hnotes)

/-- Tokens of a kind are expected alike. -/
theorem Alike.expect (kind : Kind) (fault : SyntaxFault)
    (htokens : List.Forall₂ c.token tokens tokens') :
    Alike c c.token (expect kind fault tokens) (expect kind fault tokens') := by
  cases htokens with
  | nil => exact .fail fault .nil
  | cons ht hrest =>
    rw [Step.expect, Step.expect, (c.sameText ht).kind]
    split
    · exact .done ht hrest .nil
    · exact .fail fault (.cons ht hrest)

end Step

namespace Grammar

open Step

variable {c : Matching} {tokens tokens' : List Token}

/-! ## Expressions -/

/-- Tokens with the same text stand for the same literal. -/
theorem literal?_eq {t t' : Token} (h : t.SameText t') : literal? t = literal? t' := by
  rw [literal?, literal?, h.kind, h.literal]

/-- Alike tokens start with the same kind. -/
theorem starts_eq (kind : Kind) (htokens : List.Forall₂ c.token tokens tokens') :
    starts kind tokens = starts kind tokens' := by
  cases htokens with
  | nil => rfl
  | cons ht _ => rw [starts, starts, (c.sameText ht).kind]

/-- Connectives join alike operands to alike expressions. -/
theorem join_alike (op : Connective) {left left' right right' : Expr} {span span' : Span}
    (hleft : c.trees.expr left left') (hright : c.trees.expr right right')
    (hspan : c.span span span') :
    c.trees.expr (op.join left right span) (op.join left' right' span') := by
  cases op with
  | binary op => exact .of_layer (.binary op hleft hright hspan)
  | logical op => exact .of_layer (.logical op hleft hright)

/-- Both left sides can be assigned to, or neither. -/
theorem assignTo_alike {n n' k : Nat} {target target' : Expr} {equals equals' : Token}
    {value : Step Expr n k} {value' : Step Expr n' k} (htarget : c.trees.expr target target')
    (hequals : c.token equals equals') (hvalue : value.Alike c c.trees.expr value') :
    (assignTo target equals value).Alike c c.trees.expr (assignTo target' equals' value') := by
  cases c.trees.expr_layer htarget with
  | name ht => exact hvalue.map fun h => .of_layer (.assign ht h)
  | index h₁ h₂ ht => exact hvalue.map fun h => .of_layer (.indexAssign h₁ h₂ h ht)
  | _ => exact (hvalue.map fun _ => htarget).note (.about .assignmentTarget hequals)

mutual

/-- Expressions are read alike. The productions follow each other as they do in the grammar, and
    each is one case of the induction over the tokens. -/
theorem expression_alike {tokens tokens' : List Token}
    (htokens : List.Forall₂ c.token tokens tokens') :
    (expression tokens).Alike c c.trees.expr (expression tokens') := by
  rw [expression, expression]
  apply Alike.bind (chain_alike .or htokens)
  intro target target' rest rest' fits fits' htarget hrest
  exact assignment_alike htarget hrest
termination_by 20 * tokens.length + 18
decreasing_by
  all_goals
    have hdepth := Level.or.depth_le
    omega

/-- What is read behind a target is alike. -/
theorem assignment_alike {tokens tokens' : List Token} {target target' : Expr}
    (htarget : c.trees.expr target target') (htokens : List.Forall₂ c.token tokens tokens') :
    (assignment target tokens).Alike c c.trees.expr (assignment target' tokens') := by
  cases htokens with
  | nil =>
    rw [assignment, assignment]
    exact .pure htarget .nil
  | @cons t t' rest rest' ht hrest =>
    rw [assignment, assignment, (c.sameText ht).kind]
    split
    · exact (assignTo_alike htarget ht ((expression_alike hrest).behind t t')).maybe
    · exact .pure htarget (.cons ht hrest)
termination_by 20 * tokens.length

/-- Chains of operators of a level are read alike. -/
theorem chain_alike {tokens tokens' : List Token} (l : Level)
    (htokens : List.Forall₂ c.token tokens tokens') :
    (chain l tokens).Alike c c.trees.expr (chain l tokens') := by
  rw [chain, chain]
  apply Alike.bind (operand_alike l htokens)
  intro left left' rest rest' fits fits' hleft hrest
  exact chainMore_alike l hleft hrest
termination_by 20 * tokens.length + 5 + 2 * l.depth

/-- Operands of a level are read alike. -/
theorem operand_alike {tokens tokens' : List Token} (l : Level)
    (htokens : List.Forall₂ c.token tokens tokens') :
    (operand l tokens).Alike c c.trees.expr (operand l tokens') := by
  rw [operand, operand]
  split
  · next tighter htighter =>
    have hdepth := Level.depth_of_tighter? htighter
    exact chain_alike tighter htokens
  · exact unary_alike htokens
termination_by 20 * tokens.length + 4 + 2 * l.depth

/-- The rest of a chain is read alike behind alike left operands. -/
theorem chainMore_alike {tokens tokens' : List Token} (l : Level) {left left' : Expr}
    (hleft : c.trees.expr left left') (htokens : List.Forall₂ c.token tokens tokens') :
    (chainMore l left tokens).Alike c c.trees.expr (chainMore l left' tokens') := by
  cases htokens with
  | nil =>
    rw [chainMore, chainMore]
    exact .pure hleft .nil
  | @cons t t' rest rest' ht hrest =>
    rw [chainMore, chainMore, (c.sameText ht).kind]
    -- Both parsers look at the kind of the next token only, which is the same.
    split
    · next op hop =>
      refine Alike.maybe (Alike.behind (Alike.bind (operand_alike l hrest) ?_) t t')
      intro right right' rest₁ rest₁' fits fits' hright hrest₁
      exact chainMore_alike l (join_alike op hleft hright (c.span_of_token ht)) hrest₁
    · exact .pure hleft (.cons ht hrest)
termination_by 20 * tokens.length
decreasing_by
  all_goals
    have hdepth := l.depth_le
    simp only [List.length_cons] at *
    omega

/-- Expressions with an operator in front are read alike. -/
theorem unary_alike {tokens tokens' : List Token} (htokens : List.Forall₂ c.token tokens tokens') :
    (unary tokens).Alike c c.trees.expr (unary tokens') := by
  cases htokens with
  | nil =>
    rw [unary]
    exact call_alike .nil
  | @cons t t' rest rest' ht hrest =>
    rw [unary, unary, (c.sameText ht).kind]
    -- An operator in front or none: that is the kind of the next token, and so the same for both.
    split
    · next op hop =>
      refine Alike.once (Alike.behind (Alike.map (unary_alike hrest) ?_) t t')
      intro inner inner' hinner
      exact .of_layer (.unary op hinner (c.span_of_token ht))
    · exact call_alike (.cons ht hrest)
termination_by 20 * tokens.length + 3

/-- Expressions with calls and indices behind them are read alike. -/
theorem call_alike {tokens tokens' : List Token} (htokens : List.Forall₂ c.token tokens tokens') :
    (call tokens).Alike c c.trees.expr (call tokens') := by
  rw [call, call]
  apply Alike.bind (primary_alike htokens)
  intro callee callee' rest rest' fits fits' hcallee hrest
  exact callMore_alike hcallee hrest
termination_by 20 * tokens.length + 2

/-- Calls and indices behind alike expressions are read alike. -/
theorem callMore_alike {tokens tokens' : List Token} {callee callee' : Expr}
    (hcallee : c.trees.expr callee callee') (htokens : List.Forall₂ c.token tokens tokens') :
    (callMore callee tokens).Alike c c.trees.expr (callMore callee' tokens') := by
  cases htokens with
  | nil =>
    rw [callMore, callMore]
    exact .pure hcallee .nil
  | @cons t t' rest rest' ht hrest =>
    rw [callMore, callMore, (c.sameText ht).kind]
    split
    · refine Alike.maybe (Alike.behind (Alike.bind (arguments_alike .rParen hrest) ?_) t t')
      intro args args' rest₁ rest₁' fits₁ fits₁' hargs hrest₁
      -- If the parenthesis is missing, it is missing for both, in front of alike tokens.
      apply Alike.bind (Alike.expect .rParen .parenAfterArguments hrest₁)
      intro paren paren' rest₂ rest₂' fits₂ fits₂' hparen hrest₂
      exact callMore_alike (.of_layer (.call hcallee hargs hparen)) hrest₂
    · split
      · refine Alike.maybe (Alike.behind (Alike.bind (expression_alike hrest) ?_) t t')
        intro position position' rest₁ rest₁' fits₁ fits₁' hposition hrest₁
        -- The same is true of the bracket behind an index.
        apply Alike.bind (Alike.expect .rBracket .bracketAfterIndex hrest₁)
        intro bracket bracket' rest₂ rest₂' fits₂ fits₂' hbracket hrest₂
        exact callMore_alike (.of_layer (.index hcallee hposition hbracket)) hrest₂
      · exact .pure hcallee (.cons ht hrest)
termination_by 20 * tokens.length

/-- Primary expressions are read alike. -/
theorem primary_alike {tokens tokens' : List Token}
    (htokens : List.Forall₂ c.token tokens tokens') :
    (primary tokens).Alike c c.trees.expr (primary tokens') := by
  cases htokens with
  | nil =>
    rw [primary]
    exact .fail .expression .nil
  | @cons t t' rest rest' ht hrest =>
    rw [primary, primary, literal?_eq (c.sameText ht), (c.sameText ht).kind]
    -- A literal is recognised by its kind and its value, and everything else by its kind.
    split
    · next value _ => exact (Alike.pure (.of_layer (.literal value)) hrest).behind t t'
    · split
      · exact (Alike.pure (.of_layer (.name ht)) hrest).behind t t'
      · refine Alike.once (Alike.behind (Alike.bind (expression_alike hrest) ?_) t t')
        intro inner inner' rest₁ rest₁' fits₁ fits₁' hinner hrest₁
        exact (Alike.expect .rParen .parenAfterExpression hrest₁).map fun _ =>
          .of_layer (.group hinner)
      · refine Alike.once (Alike.behind (Alike.bind (arguments_alike .rBracket hrest) ?_) t t')
        intro elements elements' rest₁ rest₁' fits₁ fits₁' helements hrest₁
        exact (Alike.expect .rBracket .bracketAfterElements hrest₁).map fun _ =>
          .of_layer (.array helements)
      · exact .fail .expression (.cons ht hrest)
termination_by 20 * tokens.length + 1

/-- Arguments are read alike up to the same closing token. -/
theorem arguments_alike {tokens tokens' : List Token} (close : Kind)
    (htokens : List.Forall₂ c.token tokens tokens') :
    (arguments close tokens).Alike c (List.Forall₂ c.trees.expr) (arguments close tokens') := by
  rw [arguments, arguments, starts_eq close htokens]
  split
  · exact .pure .nil htokens
  · apply Alike.maybe
    apply Alike.bind (expression_alike htokens)
    intro first first' rest rest' fits fits' hfirst hrest
    exact (argumentsMore_alike hrest).map fun hothers => .cons hfirst hothers
termination_by 20 * tokens.length + 19

/-- The arguments behind the first one are read alike. -/
theorem argumentsMore_alike {tokens tokens' : List Token}
    (htokens : List.Forall₂ c.token tokens tokens') :
    (argumentsMore tokens).Alike c (List.Forall₂ c.trees.expr) (argumentsMore tokens') := by
  cases htokens with
  | nil =>
    rw [argumentsMore]
    exact .pure .nil .nil
  | @cons t t' rest rest' ht hrest =>
    rw [argumentsMore, argumentsMore, (c.sameText ht).kind]
    -- A comma on one side is a comma on the other.
    split
    · refine Alike.maybe (Alike.behind (Alike.bind (expression_alike hrest) ?_) t t')
      intro next next' rest₁ rest₁' fits fits' hnext hrest₁
      exact (argumentsMore_alike hrest₁).map fun hothers => .cons hnext hothers
    · exact .pure .nil (.cons ht hrest)
termination_by 20 * tokens.length

end

/-! ## Parts of statements -/

/-- Expressions with a semicolon behind them are read alike. -/
theorem terminated_alike (fault : SyntaxFault) (htokens : List.Forall₂ c.token tokens tokens') :
    (terminated fault tokens).Alike c c.trees.expr (terminated fault tokens') := by
  rw [terminated, terminated]
  apply Alike.once
  apply Alike.bind (expression_alike htokens)
  intro value value' rest rest' fits fits' hvalue hrest
  exact (Alike.expect .semi fault hrest).map fun _ => hvalue

/-- Initializers are read alike, also where there is none. -/
theorem initializer_alike (htokens : List.Forall₂ c.token tokens tokens') :
    (initializer tokens).Alike c (Option.Rel c.trees.expr) (initializer tokens') := by
  cases htokens with
  | nil => exact .pure .none .nil
  | @cons t t' rest rest' ht hrest =>
    rw [initializer, initializer, (c.sameText ht).kind]
    split
    · exact Alike.maybe (Alike.behind ((expression_alike hrest).map fun h => .some h) t t')
    · exact .pure .none (.cons ht hrest)

/-- Declarations of variables are read alike. -/
theorem variableDeclaration_alike (htokens : List.Forall₂ c.token tokens tokens') :
    (variableDeclaration tokens).Alike c c.trees.stmt (variableDeclaration tokens') := by
  rw [variableDeclaration, variableDeclaration]
  apply Alike.once
  apply Alike.bind (Alike.expect .identifier .variableName htokens)
  intro name name' rest₁ rest₁' fits₁ fits₁' hname hrest₁
  apply Alike.bind (initializer_alike hrest₁)
  intro init init' rest₂ rest₂' fits₂ fits₂' hinit hrest₂
  exact (Alike.expect .semi .semiAfterVariable hrest₂).map fun _ => .of_layer (.declare hname hinit)

/-- The parameters behind the first one are read alike. -/
theorem parametersMore_alike {tokens tokens' : List Token}
    (htokens : List.Forall₂ c.token tokens tokens') :
    (parametersMore tokens).Alike c (List.Forall₂ c.token) (parametersMore tokens') := by
  cases htokens with
  | nil =>
    rw [parametersMore]
    exact .pure .nil .nil
  | @cons t t' rest rest' ht hrest =>
    rw [parametersMore, parametersMore, (c.sameText ht).kind]
    -- A comma on one side is a comma on the other.
    split
    · refine Alike.maybe (Alike.behind (Alike.bind
        (Alike.expect .identifier .parameterName hrest) ?_) t t')
      intro next next' rest₁ rest₁' fits fits' hnext hrest₁
      exact (parametersMore_alike hrest₁).map fun hothers => .cons hnext hothers
    · exact .pure .nil (.cons ht hrest)
termination_by tokens.length

/-- Parameters are read alike. -/
theorem parameters_alike (htokens : List.Forall₂ c.token tokens tokens') :
    (parameters tokens).Alike c (List.Forall₂ c.token) (parameters tokens') := by
  rw [parameters, parameters, starts_eq .rParen htokens]
  split
  · exact .pure .nil htokens
  · apply Alike.maybe
    apply Alike.bind (Alike.expect .identifier .parameterName htokens)
    intro first first' rest rest' fits fits' hfirst hrest
    exact (parametersMore_alike hrest).map fun hothers => .cons hfirst hothers

/-- The names of functions and their parameters are read alike. -/
theorem signature_alike (htokens : List.Forall₂ c.token tokens tokens') :
    (signature tokens).Alike c
      (fun head head' => c.token head.1 head'.1 ∧ List.Forall₂ c.token head.2 head'.2)
      (signature tokens') := by
  rw [signature, signature]
  -- The five parts are read one after the other, and each is alike in front of alike tokens.
  apply Alike.once
  apply Alike.bind (Alike.expect .identifier .functionName htokens)
  intro name name' rest₁ rest₁' fits₁ fits₁' hname hrest₁
  apply Alike.bind (Alike.expect .lParen .parenAfterFunctionName hrest₁)
  intro opening opening' rest₂ rest₂' fits₂ fits₂' _ hrest₂
  apply Alike.bind (parameters_alike hrest₂)
  intro params params' rest₃ rest₃' fits₃ fits₃' hparams hrest₃
  apply Alike.bind (Alike.expect .rParen .parenAfterParameters hrest₃)
  intro closing closing' rest₄ rest₄' fits₄ fits₄' _ hrest₄
  exact (Alike.expect .lBrace .braceBeforeBody hrest₄).map fun _ => ⟨hname, hparams⟩

/-- Conditions are read alike, in parentheses that may be missing on both sides only. -/
theorem condition_alike (opening closing : SyntaxFault)
    (htokens : List.Forall₂ c.token tokens tokens') :
    (condition opening closing tokens).Alike c c.trees.expr
      (condition opening closing tokens') := by
  rw [condition, condition]
  apply Alike.once
  apply Alike.bind (Alike.expect .lParen opening htokens)
  intro paren paren' rest₁ rest₁' fits₁ fits₁' _ hrest₁
  apply Alike.bind (expression_alike hrest₁)
  intro value value' rest₂ rest₂' fits₂ fits₂' hvalue hrest₂
  exact (Alike.expect .rParen closing hrest₂).map fun _ => hvalue

/-- Results are read alike, with or without a value. -/
theorem result_alike {keyword keyword' : Token} (hkeyword : c.token keyword keyword')
    (htokens : List.Forall₂ c.token tokens tokens') :
    (result keyword tokens).Alike c c.trees.stmt (result keyword' tokens') := by
  have hvalue {tokens tokens' : List Token} (htokens : List.Forall₂ c.token tokens tokens') :
      ((terminated .semiAfterReturn tokens).map fun value =>
        Stmt.result keyword (some value)).Alike c
        c.trees.stmt
        ((terminated .semiAfterReturn tokens').map fun value =>
          Stmt.result keyword' (some value)) :=
    (terminated_alike _ htokens).map fun h => .of_layer (.result hkeyword (.some h))
  -- Only a semicolon means that there is no value, so what is left is the case with one.
  cases htokens with
  | nil => exact hvalue .nil
  | @cons t t' rest rest' ht hrest =>
    rw [result, result, (c.sameText ht).kind]
    split
    · exact (Alike.pure (.of_layer (.result hkeyword .none)) hrest).behind t t'
    · exact hvalue (.cons ht hrest)

/-! ## Recovery -/

/-- What is recovered are related statements, matching tokens and matching notes. -/
structure Recovered.Alike (c : Matching) {n n' : Nat} (r : Recovered n) (r' : Recovered n') :
    Prop where
  statement? : Option.Rel c.trees.stmt r.statement? r'.statement?
  rest : List.Forall₂ c.token r.rest r'.rest
  notes : List.Forall₂ c.Note r.notes r'.notes

/-- Where reading goes on behind alike tokens is alike. -/
theorem resumeBehind_alike {previous previous' : Token} (hprevious : c.token previous previous')
    (htokens : List.Forall₂ c.token tokens tokens') :
    List.Forall₂ c.token (resumeBehind previous tokens) (resumeBehind previous' tokens') := by
  induction htokens generalizing previous previous' with
  | nil => exact .nil
  | cons ht hrest ih =>
    rw [resumeBehind, resumeBehind, (c.sameText hprevious).kind, (c.sameText ht).kind]
    split
    · exact .cons ht hrest
    · exact ih ht

/-- Where reading goes on after a fault in front of alike tokens is alike. -/
theorem resume_alike (htokens : List.Forall₂ c.token tokens tokens') :
    List.Forall₂ c.token (resume tokens) (resume tokens') := by
  cases htokens with
  | nil => exact .nil
  | cons ht hrest => exact resumeBehind_alike ht hrest

/-- Matching tokens are to blame for a fault. -/
theorem blame_alike {stop stop' : Token} (hstop : c.token stop stop')
    (htokens : List.Forall₂ c.token tokens tokens') (fault : SyntaxFault) :
    c.Note (blame stop tokens fault) (blame stop' tokens' fault) := by
  cases htokens with
  | nil => exact .about fault hstop
  | cons ht _ => exact .about fault ht

/-- Recovery from alike steps is alike. A step without a value is one on both sides, and it is
    blamed on alike tokens. -/
theorem recover_alike {n n' : Nat} {stop stop' : Token} (hstop : c.token stop stop') (h : 0 < n)
    (h' : 0 < n') {s : Step Stmt n 1} {s' : Step Stmt n' 1} (hstep : s.Alike c c.trees.stmt s') :
    (recover stop h s).Alike c (recover stop' h' s') := by
  cases hstep with
  | done hvalue hrest hnotes => exact ⟨.some hvalue, hrest, hnotes⟩
  | stuck fault hrest hnotes =>
    exact ⟨.none, resume_alike hrest,
      List.rel_append hnotes (.cons (blame_alike hstop hrest fault) .nil)⟩

/-! ## Statements -/

section

variable {stop stop' : Token}

mutual

/-- Declarations are read alike, those that are dropped included. -/
theorem declaration_alike {t t' : Token} {rest rest' : List Token} (hstop : c.token stop stop')
    (ht : c.token t t') (hrest : List.Forall₂ c.token rest rest') :
    (declaration stop t rest).Alike c (declaration stop' t' rest') := by
  rw [declaration, declaration]
  exact recover_alike hstop _ _ (declared_alike hstop ht hrest)
termination_by 10 * rest.length + 14

/-- Declarations before recovery are read alike. -/
theorem declared_alike {t t' : Token} {rest rest' : List Token} (hstop : c.token stop stop')
    (ht : c.token t t') (hrest : List.Forall₂ c.token rest rest') :
    (declared stop t rest).Alike c c.trees.stmt (declared stop' t' rest') := by
  rw [declared, declared, (c.sameText ht).kind]
  split
  · exact ((variableDeclaration_alike hrest).behind t t').once
  · refine Alike.once (Alike.behind (Alike.bind (signature_alike hrest) ?_) t t')
    intro head head' rest₁ rest₁' fits fits' hhead hrest₁
    exact (block_alike hstop hrest₁).map fun hbody => .of_layer (.function hhead.1 hhead.2 hbody)
  · exact statement_alike hstop (.cons ht hrest)
termination_by 10 * rest.length + 13

/-- Statements are read alike. -/
theorem statement_alike {tokens tokens' : List Token} (hstop : c.token stop stop')
    (htokens : List.Forall₂ c.token tokens tokens') :
    (statement stop tokens).Alike c c.trees.stmt (statement stop' tokens') := by
  cases htokens with
  | nil =>
    rw [statement, statement]
    exact (terminated_alike _ .nil).map fun h => .of_layer (.expression h)
  | @cons t t' rest rest' ht hrest =>
    rw [statement, statement, (c.sameText ht).kind]
    -- The first token decides which statement it is. What is not a keyword of a statement starts an
    -- expression.
    split
    · next kind _ =>
      exact Alike.once
        (Alike.behind ((terminated_alike _ hrest).map fun h => .of_layer (.read kind ht h)) t t')
    · split
      · refine Alike.once (Alike.behind (Alike.bind (condition_alike _ _ hrest) ?_) t t')
        intro test test' rest₁ rest₁' fits₁ fits₁' htest hrest₁
        apply Alike.bind (statement_alike hstop hrest₁)
        intro consequent consequent' rest₂ rest₂' fits₂ fits₂' hconsequent hrest₂
        exact alternative_alike hstop htest hconsequent hrest₂
      · refine Alike.once (Alike.behind (Alike.bind (condition_alike _ _ hrest) ?_) t t')
        intro test test' rest₁ rest₁' fits₁ fits₁' htest hrest₁
        exact (statement_alike hstop hrest₁).map fun hbody => .of_layer (.loop htest hbody)
      · exact Alike.once
          (Alike.behind ((terminated_alike _ hrest).map fun h => .of_layer (.print ht h)) t t')
      · exact ((result_alike ht hrest).behind t t').once
      · exact Alike.once (Alike.behind ((block_alike hstop hrest).map fun h =>
          .of_layer (.block h)) t t')
      · exact (terminated_alike _ (.cons ht hrest)).map fun h => .of_layer (.expression h)
termination_by 10 * tokens.length + 2

/-- What is read behind the consequent of a conditional is alike. -/
theorem alternative_alike {test test' : Expr} {consequent consequent' : Stmt}
    {tokens tokens' : List Token} (hstop : c.token stop stop') (htest : c.trees.expr test test')
    (hconsequent : c.trees.stmt consequent consequent')
    (htokens : List.Forall₂ c.token tokens tokens') :
    (alternative stop test consequent tokens).Alike c c.trees.stmt
      (alternative stop' test' consequent' tokens') := by
  cases htokens with
  | nil =>
    rw [alternative, alternative]
    exact .pure (.of_layer (.ifThen htest hconsequent)) .nil
  | @cons t t' rest rest' ht hrest =>
    rw [alternative, alternative, (c.sameText ht).kind]
    -- An alternative is there on both sides or on neither.
    split
    · exact Alike.maybe (Alike.behind
        ((statement_alike hstop hrest).map fun h =>
          .of_layer (.ifThenElse htest hconsequent h)) t t')
    · exact .pure (.of_layer (.ifThen htest hconsequent)) (.cons ht hrest)
termination_by 10 * tokens.length

/-- The declarations of a block are read alike up to its brace. -/
theorem block_alike {tokens tokens' : List Token} (hstop : c.token stop stop')
    (htokens : List.Forall₂ c.token tokens tokens') :
    (block stop tokens).Alike c (List.Forall₂ c.trees.stmt) (block stop' tokens') := by
  cases htokens with
  | nil =>
    rw [block, block]
    exact .fail .braceAfterBlock .nil
  | @cons t t' rest rest' ht hrest =>
    rw [block, block, (c.sameText ht).kind]
    split
    · exact (Alike.pure .nil hrest).behind t t'
    · -- The first declaration has used up a token on both sides, so the rest is alike and shorter.
      have hfirst := declaration_alike hstop ht hrest
      split
      next statement? rest₁ notes fits heq =>
      split
      next statement?' rest₁' notes' fits' heq' =>
      rw [heq, heq'] at hfirst
      have hothers := block_alike hstop hfirst.rest
      refine Alike.within (Alike.precede (Alike.map hothers fun hbody => ?_) hfirst.notes) _ _
      exact List.rel_append hfirst.statement?.toList hbody
termination_by 10 * tokens.length + 5

end

/-- A first declaration, and those in what it leaves. -/
theorem declarations_cons (stop t : Token) (rest : List Token) :
    declarations stop (t :: rest) =
      ((declaration stop t rest).statement?.toList ++
          (declarations stop (declaration stop t rest).rest).1,
        (declaration stop t rest).notes ++
          (declarations stop (declaration stop t rest).rest).2) := by
  rw [declarations]

/-- All declarations are read or recovered from in the same way. -/
theorem declarations_alike {tokens tokens' : List Token} (hstop : c.token stop stop')
    (htokens : List.Forall₂ c.token tokens tokens') :
    List.Forall₂ c.trees.stmt (declarations stop tokens).1 (declarations stop' tokens').1 ∧
      List.Forall₂ c.Note (declarations stop tokens).2 (declarations stop' tokens').2 := by
  cases htokens with
  | nil =>
    rw [declarations, declarations]
    exact ⟨.nil, .nil⟩
  | @cons t t' rest rest' ht hrest =>
    -- As in a block, but with nothing to expect at the end.
    have hfirst := declaration_alike hstop ht hrest
    have hdrop := (declaration stop t rest).fits
    obtain ⟨hstatements, hnotes⟩ := declarations_alike hstop hfirst.rest
    rw [declarations_cons, declarations_cons]
    exact ⟨List.rel_append hfirst.statement?.toList hstatements,
      List.rel_append hfirst.notes hnotes⟩
termination_by tokens.length

end

end Grammar

namespace Matching

variable {c : Matching} {tokens tokens' : List Token}

/-- An end mark among the tokens ends both lists, at matching tokens. -/
theorem stopOf_alike (htokens : List.Forall₂ c.token tokens tokens')
    (hstop : ∃ t ∈ tokens, t.kind = .eof) :
    c.token (Parsed.stopOf tokens) (Parsed.stopOf tokens') := by
  have hfound := htokens.rel_find? (p := (·.kind == .eof)) (q := (·.kind == .eof))
    fun ht => by rw [(c.sameText ht).kind]
  rw [Parsed.stopOf, Parsed.stopOf]
  -- An end mark has been asked for, and its partner is the first one on the other side.
  cases hfind : tokens.find? (·.kind == .eof) with
  | none =>
    obtain ⟨t, hmem, hkind⟩ := hstop
    exact absurd (beq_iff_eq.2 hkind) (List.find?_eq_none.1 hfind t hmem)
  | some stop =>
    rw [hfind] at hfound
    obtain ⟨stop', hfind', hstop⟩ := hfound.exists_of_some
    rw [hfind']
    exact hstop

/-- The parser makes trees that are like each other of matching tokens, and the same faults at
    matching ones. -/
theorem ofTokens_alike (htokens : List.Forall₂ c.token tokens tokens')
    (hstop : ∃ t ∈ tokens, t.kind = .eof) :
    List.Forall₂ c.trees.stmt (Parsed.ofTokens tokens).program.statements
        (Parsed.ofTokens tokens').program.statements ∧
      List.Forall₂ c.Note (Parsed.ofTokens tokens).diagnostics
        (Parsed.ofTokens tokens').diagnostics :=
  Grammar.declarations_alike (stopOf_alike htokens hstop)
    (htokens.rel_takeWhile fun ht => by rw [(c.sameText ht).kind])

end Matching

end Treewalk
