import Treewalk.Proofs.Grammar.Locality
import Treewalk.Proofs.Grammar.Outcome

/-!
# An error stays in front of the next semicolon

Tokens are *delimited* if they end with a semicolon and there is no opening brace among them. An
expression reads no semicolon, so it leaves some of them in any case, and a statement that is read
to their end has read that semicolon. So the grammar never waits for more at the end of delimited
tokens. If it is stuck, then in front of one of them, and recovery goes on behind their last
semicolon at the latest. `Step.Leaves` says what is left by a production in either case.

The main statement is `Parsed.ofTokens_append_of_semi`: delimited tokens and others behind them are
read and recovered from as they are on their own.
-/

namespace Treewalk

/-- Tokens that end with a semicolon, with no opening brace among them. -/
inductive Delimited : List Token → Prop where
  | last {t : Token} (h : t.kind = .semi) : Delimited [t]
  | cons {t : Token} {rest : List Token} (h : t.kind ≠ .lBrace) (hrest : Delimited rest) :
      Delimited (t :: rest)

/-- What may be left of delimited tokens where a statement has ended. -/
def Delimited.OrNil (tokens : List Token) : Prop := tokens = [] ∨ Delimited tokens

namespace Delimited

variable {t : Token} {rest tokens : List Token}

/-- Tokens are delimited if the last of them is a semicolon and none is an opening brace. -/
theorem of_getLast? (hlast : ∃ t, tokens.getLast? = some t ∧ t.kind = .semi)
    (hbrace : ∀ t ∈ tokens, t.kind ≠ .lBrace) : Delimited tokens := by
  obtain ⟨semi, hsemi, hkind⟩ := hlast
  induction tokens with
  | nil => exact nomatch hsemi
  | cons t rest ih =>
    obtain ⟨hfirst, hothers⟩ := List.forall_mem_cons.1 hbrace
    cases rest with
    | nil =>
      obtain rfl := Option.some.inj hsemi
      exact .last hkind
    | cons u rest => exact .cons hfirst (ih hothers hsemi)

/-- Delimited tokens hold the semicolon at their end. -/
theorem ne_nil (h : Delimited tokens) : tokens ≠ [] := by
  cases h <;> exact List.cons_ne_nil _ _

/-- Delimited tokens are ones that may be left where a statement has ended. -/
theorem orNil (h : Delimited tokens) : OrNil tokens := .inr h

/-- Delimited tokens do not start with an opening brace. -/
theorem kind_ne_lBrace (h : Delimited (t :: rest)) : t.kind ≠ .lBrace := by
  cases h with
  | last h => rw [h]; decide
  | cons h _ => exact h

/-- A token less leaves nothing or delimited tokens. -/
theorem tail (h : Delimited (t :: rest)) : OrNil rest := by
  cases h with
  | last _ => exact .inl rfl
  | cons _ hrest => exact .inr hrest

/-- Without a token that is no semicolon, delimited tokens are still delimited. -/
theorem of_cons (h : Delimited (t :: rest)) (hsemi : t.kind ≠ .semi) : Delimited rest := by
  cases h with
  | last h => exact absurd h hsemi
  | cons _ hrest => exact hrest

end Delimited

namespace Step

variable {α β : Type} {n k j : Nat} {tokens : List Token} {V W F : List Token → Prop}

/-- What holds of the tokens that are left if there is a value, and if the grammar is stuck. -/
def Leaves (s : Step α n k) (value fault : List Token → Prop) : Prop :=
  s.Ensures (fun _ rest _ => value rest) (fun _ rest _ => fault rest)

/-- What is left for a value may be stated more weakly. -/
theorem Leaves.imp {s : Step α n k} (h : s.Leaves V F) (himp : ∀ rest, V rest → W rest) :
    s.Leaves W F :=
  Ensures.imp h (fun _ rest _ => himp rest) fun _ _ _ => id

/-- The second step starts with the tokens that the first one leaves for its value. -/
theorem Leaves.bind {s : Step α n k}
    {next : α → (rest : List Token) → rest.length + k ≤ n → Step β rest.length j} (h : s.Leaves V F)
    (hnext : ∀ a rest fits, V rest → (next a rest fits).Leaves W F) : (s.bind next).Leaves W F :=
  (ensures_bind s next).2
    (Ensures.imp h (fun a rest _ hrest fits => hnext a rest fits hrest) fun _ _ _ => id)

/-- A step that is done at once leaves its tokens for the value. -/
theorem leaves_pure {a : α} (h : V tokens) : (pure a tokens).Leaves V F :=
  (ensures_pure a tokens).2 h

/-- A step that fails at once is stuck in front of its tokens. -/
theorem leaves_fail (fault : SyntaxFault) (h : F tokens) :
    (fail fault tokens : Step α tokens.length k).Leaves V F := (ensures_fail fault tokens).2 h

/-- Mapping the value does not change what is left. -/
theorem Leaves.map {s : Step α n k} (g : α → β) (h : s.Leaves V F) : (s.map g).Leaves V F :=
  (ensures_map g s).2 h

/-- What is left does not depend on how many tokens are known to be read. -/
theorem Leaves.maybe {s : Step α n k} (h : s.Leaves V F) : s.maybe.Leaves V F :=
  (ensures_maybe s).2 h

/-- Nor does it if one token is known to be read. -/
theorem Leaves.once {s : Step α n (k + 1)} (h : s.Leaves V F) : s.once.Leaves V F :=
  (ensures_once s).2 h

/-- A token in front of a step is not among those that are left. -/
theorem Leaves.behind {s : Step α tokens.length k} (h : s.Leaves V F) (t : Token) :
    (s.behind t).Leaves V F :=
  (ensures_behind s t).2 h

/-- A note does not change what is left. -/
theorem Leaves.note {s : Step α n k} (h : s.Leaves V F) (d : Diagnostic) : (s.note d).Leaves V F :=
  (ensures_note s d).2 h

/-- A token of any other kind is read without the semicolon at the end. -/
theorem leaves_expect {kind : Kind} (fault : SyntaxFault) (hkind : kind ≠ .semi)
    (h : Delimited tokens) : (expect kind fault tokens).Leaves Delimited Delimited := by
  cases tokens with
  | nil => exact absurd rfl h.ne_nil
  | cons t rest =>
    refine (ensures_expect_cons kind fault t rest).2 ?_
    split
    · next ht => exact h.of_cons (ht ▸ hkind)
    · exact h

/-- A semicolon that is read may be the last one. -/
theorem leaves_expect_semi (fault : SyntaxFault) (h : Delimited tokens) :
    (expect .semi fault tokens).Leaves Delimited.OrNil Delimited := by
  cases tokens with
  | nil => exact absurd rfl h.ne_nil
  | cons t rest =>
    refine (ensures_expect_cons .semi fault t rest).2 ?_
    split
    · exact h.tail
    · exact h

end Step

namespace Grammar

open Step

/-! ## Expressions -/

/-- No literal is a semicolon, so reading one leaves the semicolon at the end. -/
theorem kind_ne_semi_of_literal? {t : Token} {value : Literal} (h : literal? t = some value) :
    t.kind ≠ .semi := by
  intro hsemi
  rw [literal?, hsemi] at h
  exact nomatch h

/-- Checking the target of an assignment reads nothing, so it leaves what the value does. -/
theorem assignTo_leaves {n k : Nat} {V F : List Token → Prop} (target : Expr) (equals : Token)
    {value : Step Expr n k} (h : value.Leaves V F) : (assignTo target equals value).Leaves V F := by
  cases target with
  | name token => exact h.map _
  | index object position bracket => exact h.map _
  | _ => exact (h.map _).note _

mutual

/-- No expression reads a semicolon. -/
theorem expression_leaves (tokens : List Token) :
    Delimited tokens → (expression tokens).Leaves Delimited Delimited := by
  intro h
  rw [expression]
  apply Leaves.bind (chain_leaves .or tokens h)
  intro target rest fits hrest
  exact assignment_leaves target rest hrest
termination_by 20 * tokens.length + 18
decreasing_by
  all_goals
    have hdepth := Level.or.depth_le
    omega

/-- Behind an equals sign an assignment leaves what its value does, and everything otherwise. -/
theorem assignment_leaves (target : Expr) (tokens : List Token) :
    Delimited tokens → (assignment target tokens).Leaves Delimited Delimited := by
  cases tokens with
  | nil => exact fun h => absurd rfl h.ne_nil
  | cons t rest =>
    intro h
    rw [assignment]
    split
    · next hequals =>
      -- An equals sign is no semicolon, so behind it the tokens are still delimited.
      have hrest := h.of_cons (by rw [hequals]; decide)
      exact (assignTo_leaves target t ((expression_leaves rest hrest).behind t)).maybe
    · exact leaves_pure h
termination_by 20 * tokens.length

/-- A chain reads its operands and connectives, none of which is a semicolon. -/
theorem chain_leaves (l : Level) (tokens : List Token) :
    Delimited tokens → (chain l tokens).Leaves Delimited Delimited := by
  intro h
  rw [chain]
  apply Leaves.bind (operand_leaves l tokens h)
  intro left rest fits hrest
  exact chainMore_leaves l left rest hrest
termination_by 20 * tokens.length + 5 + 2 * l.depth

/-- An operand of a level is a chain of the next one, or a unary expression. -/
theorem operand_leaves (l : Level) (tokens : List Token) :
    Delimited tokens → (operand l tokens).Leaves Delimited Delimited := by
  intro h
  rw [operand]
  split
  · next tighter htighter =>
    have hdepth := Level.depth_of_tighter? htighter
    exact chain_leaves tighter tokens h
  · exact unary_leaves tokens h
termination_by 20 * tokens.length + 4 + 2 * l.depth

/-- The rest of a chain stops in front of a semicolon at the latest. -/
theorem chainMore_leaves (l : Level) (left : Expr) (tokens : List Token) :
    Delimited tokens → (chainMore l left tokens).Leaves Delimited Delimited := by
  cases tokens with
  | nil => exact fun h => absurd rfl h.ne_nil
  | cons t rest =>
    intro h
    rw [chainMore]
    split
    · next op hop =>
      -- A semicolon is no connective of any level.
      have hrest := h.of_cons fun hsemi => by rw [hsemi] at hop; exact nomatch hop
      apply Leaves.maybe
      apply Leaves.behind
      apply Leaves.bind (operand_leaves l rest hrest)
      intro right rest' fits hrest'
      exact chainMore_leaves l (op.join left right t.span) rest' hrest'
    · exact leaves_pure h
termination_by 20 * tokens.length
decreasing_by
  all_goals
    have hdepth := l.depth_le
    simp only [List.length_cons] at *
    omega

/-- A unary expression reads operators and then a call. -/
theorem unary_leaves (tokens : List Token) :
    Delimited tokens → (unary tokens).Leaves Delimited Delimited := by
  cases tokens with
  | nil => exact fun h => absurd rfl h.ne_nil
  | cons t rest =>
    intro h
    rw [unary]
    split
    · next op hop =>
      -- A semicolon is no prefix operator.
      have hrest := h.of_cons fun hsemi => by rw [hsemi] at hop; exact nomatch hop
      exact (((unary_leaves rest hrest).map _).behind t).once
    · exact call_leaves (t :: rest) h
termination_by 20 * tokens.length + 3

/-- A call reads its callee and the arguments and positions behind it. -/
theorem call_leaves (tokens : List Token) :
    Delimited tokens → (call tokens).Leaves Delimited Delimited := by
  intro h
  rw [call]
  apply Leaves.bind (primary_leaves tokens h)
  intro callee rest fits hrest
  exact callMore_leaves callee rest hrest
termination_by 20 * tokens.length + 2

/-- What follows a callee stops in front of a semicolon at the latest. -/
theorem callMore_leaves (callee : Expr) (tokens : List Token) :
    Delimited tokens → (callMore callee tokens).Leaves Delimited Delimited := by
  cases tokens with
  | nil => exact fun h => absurd rfl h.ne_nil
  | cons t rest =>
    intro h
    rw [callMore]
    split
    · next hparen =>
      have hrest := h.of_cons (by rw [hparen]; decide)
      apply Leaves.maybe
      apply Leaves.behind
      -- Without the closing bracket the grammar is stuck, but still in front of delimited tokens.
      apply Leaves.bind (arguments_leaves .rParen rest hrest)
      intro args rest₁ fits₁ hrest₁
      apply Leaves.bind (leaves_expect .parenAfterArguments (by decide) hrest₁)
      intro paren rest₂ fits₂ hrest₂
      exact callMore_leaves (.call callee args paren) rest₂ hrest₂
    · split
      · next hbracket =>
        have hrest := h.of_cons (by rw [hbracket]; decide)
        apply Leaves.maybe
        apply Leaves.behind
        apply Leaves.bind (expression_leaves rest hrest)
        intro position rest₁ fits₁ hrest₁
        apply Leaves.bind (leaves_expect .bracketAfterIndex (by decide) hrest₁)
        intro bracket rest₂ fits₂ hrest₂
        exact callMore_leaves (.index callee position bracket) rest₂ hrest₂
      · exact leaves_pure h
termination_by 20 * tokens.length

/-- A primary expression reads one token, or a bracket and what it encloses. -/
theorem primary_leaves (tokens : List Token) :
    Delimited tokens → (primary tokens).Leaves Delimited Delimited := by
  cases tokens with
  | nil => exact fun h => absurd rfl h.ne_nil
  | cons t rest =>
    intro h
    rw [primary]
    split
    · next value hvalue =>
      -- Each form starts with a token that is no semicolon, and a semicolon itself starts none.
      exact (leaves_pure (h.of_cons (kind_ne_semi_of_literal? hvalue))).behind t
    · split
      · next hidentifier => exact (leaves_pure (h.of_cons (by rw [hidentifier]; decide))).behind t
      · next hparen =>
        have hrest := h.of_cons (by rw [hparen]; decide)
        apply Leaves.once
        apply Leaves.behind
        apply Leaves.bind (expression_leaves rest hrest)
        intro inner rest' fits hrest'
        exact (leaves_expect .parenAfterExpression (by decide) hrest').map _
      · next hbracket =>
        have hrest := h.of_cons (by rw [hbracket]; decide)
        apply Leaves.once
        apply Leaves.behind
        apply Leaves.bind (arguments_leaves .rBracket rest hrest)
        intro elements rest' fits hrest'
        exact (leaves_expect .bracketAfterElements (by decide) hrest').map _
      · exact leaves_fail .expression h
termination_by 20 * tokens.length + 1

/-- Arguments leave delimited tokens, whatever bracket is to close them. -/
theorem arguments_leaves (close : Kind) (tokens : List Token) :
    Delimited tokens → (arguments close tokens).Leaves Delimited Delimited := by
  intro h
  rw [arguments]
  split
  · exact leaves_pure h
  · apply Leaves.maybe
    apply Leaves.bind (expression_leaves tokens h)
    intro first rest fits hrest
    exact (argumentsMore_leaves rest hrest).map _
termination_by 20 * tokens.length + 19

/-- Arguments behind the first one are each led by a comma, which is no semicolon. -/
theorem argumentsMore_leaves (tokens : List Token) :
    Delimited tokens → (argumentsMore tokens).Leaves Delimited Delimited := by
  cases tokens with
  | nil => exact fun h => absurd rfl h.ne_nil
  | cons t rest =>
    intro h
    rw [argumentsMore]
    split
    · next hcomma =>
      -- The comma is read, and the semicolon is still ahead.
      have hrest := h.of_cons (by rw [hcomma]; decide)
      apply Leaves.maybe
      apply Leaves.behind
      apply Leaves.bind (expression_leaves rest hrest)
      intro next rest' fits hrest'
      exact (argumentsMore_leaves rest' hrest').map _
    · exact leaves_pure h
termination_by 20 * tokens.length

end

/-! ## Parts of statements -/

/-- Only here a semicolon is read, and it may be the last token of all. -/
theorem terminated_leaves (fault : SyntaxFault) {tokens : List Token} (h : Delimited tokens) :
    (terminated fault tokens).Leaves Delimited.OrNil Delimited := by
  rw [terminated]
  apply Leaves.once
  apply Leaves.bind (expression_leaves tokens h)
  intro value rest fits hrest
  exact (leaves_expect_semi fault hrest).map _

/-- An initial value is led by an equals sign, which is no semicolon. -/
theorem initializer_leaves {tokens : List Token} (h : Delimited tokens) :
    (initializer tokens).Leaves Delimited Delimited := by
  cases tokens with
  | nil => exact absurd rfl h.ne_nil
  | cons t rest =>
    rw [initializer]
    split
    · next hequals =>
      have hrest := h.of_cons (by rw [hequals]; decide)
      exact (((expression_leaves rest hrest).map _).behind t).maybe
    · exact leaves_pure h

/-- A declaration of a variable ends with its semicolon, or is stuck in front of one. -/
theorem variableDeclaration_leaves {tokens : List Token} (h : Delimited tokens) :
    (variableDeclaration tokens).Leaves Delimited.OrNil Delimited := by
  rw [variableDeclaration]
  apply Leaves.once
  apply Leaves.bind (leaves_expect .variableName (by decide) h)
  intro name rest₁ fits₁ hrest₁
  apply Leaves.bind (initializer_leaves hrest₁)
  intro init rest₂ fits₂ hrest₂
  exact (leaves_expect_semi .semiAfterVariable hrest₂).map _

/-- Parameters behind the first one are each led by a comma, which is no semicolon. -/
theorem parametersMore_leaves (tokens : List Token) :
    Delimited tokens → (parametersMore tokens).Leaves Delimited Delimited := by
  cases tokens with
  | nil => exact fun h => absurd rfl h.ne_nil
  | cons t rest =>
    intro h
    rw [parametersMore]
    split
    · next hcomma =>
      -- As for arguments, with a name behind the comma in place of an expression.
      have hrest := h.of_cons (by rw [hcomma]; decide)
      apply Leaves.maybe
      apply Leaves.behind
      apply Leaves.bind (leaves_expect .parameterName (by decide) hrest)
      intro next rest' fits hrest'
      exact (parametersMore_leaves rest' hrest').map _
    · exact leaves_pure h
termination_by tokens.length

/-- Parameters are names and commas, so they leave the semicolon. -/
theorem parameters_leaves {tokens : List Token} (h : Delimited tokens) :
    (parameters tokens).Leaves Delimited Delimited := by
  rw [parameters]
  split
  · exact leaves_pure h
  · apply Leaves.maybe
    apply Leaves.bind (leaves_expect .parameterName (by decide) h)
    intro first rest fits hrest
    exact (parametersMore_leaves rest hrest).map _

/-- No function can be read, for want of a brace in front of its body. -/
theorem signature_leaves {tokens : List Token} (h : Delimited tokens) :
    (signature tokens).Leaves (fun _ => False) Delimited := by
  rw [signature]
  apply Leaves.once
  apply Leaves.bind (leaves_expect .functionName (by decide) h)
  intro name rest₁ fits₁ hrest₁
  apply Leaves.bind (leaves_expect .parenAfterFunctionName (by decide) hrest₁)
  intro opening rest₂ fits₂ hrest₂
  apply Leaves.bind (parameters_leaves hrest₂)
  intro params rest₃ fits₃ hrest₃
  apply Leaves.bind (leaves_expect .parenAfterParameters (by decide) hrest₃)
  intro closing rest₄ fits₄ hrest₄
  -- All that is left is to find the brace, which is not among these tokens.
  apply Leaves.map
  cases rest₄ with
  | nil => exact absurd rfl hrest₄.ne_nil
  | cons t rest =>
    rw [Step.expect, if_neg hrest₄.kind_ne_lBrace]
    exact leaves_fail .braceBeforeBody hrest₄

/-- A condition is enclosed by parentheses and leaves the semicolon. -/
theorem condition_leaves (opening closing : SyntaxFault) {tokens : List Token}
    (h : Delimited tokens) : (condition opening closing tokens).Leaves Delimited Delimited := by
  rw [condition]
  apply Leaves.once
  apply Leaves.bind (leaves_expect opening (by decide) h)
  intro paren rest₁ fits₁ hrest₁
  apply Leaves.bind (expression_leaves rest₁ hrest₁)
  intro value rest₂ fits₂ hrest₂
  exact (leaves_expect closing (by decide) hrest₂).map _

/-- A return ends with its semicolon, or is stuck in front of one. -/
theorem result_leaves (keyword : Token) {tokens : List Token} (h : Delimited tokens) :
    (result keyword tokens).Leaves Delimited.OrNil Delimited := by
  cases tokens with
  | nil => exact absurd rfl h.ne_nil
  | cons t rest =>
    rw [result]
    split
    · exact (leaves_pure h.tail).behind t
    · exact (terminated_leaves .semiAfterReturn h).map _

/-! ## Statements -/

section

variable (stop : Token)

mutual

/-- A statement that is read ends with a semicolon, and that may be the last one. -/
theorem statement_leaves (tokens : List Token) :
    Delimited tokens → (statement stop tokens).Leaves Delimited.OrNil Delimited := by
  cases tokens with
  | nil => exact fun h => absurd rfl h.ne_nil
  | cons t rest =>
    intro h
    rw [statement]
    split
    · next what hwhat =>
      have hrest := h.of_cons fun hsemi => by rw [hsemi] at hwhat; exact nomatch hwhat
      exact (((terminated_leaves _ hrest).map _).behind t).once
    · split
      · next hif =>
        have hrest := h.of_cons (by rw [hif]; decide)
        apply Leaves.once
        apply Leaves.behind
        apply Leaves.bind (condition_leaves _ _ hrest)
        intro test rest₁ fits₁ hrest₁
        apply Leaves.bind (statement_leaves rest₁ hrest₁)
        intro consequent rest₂ fits₂ hrest₂
        exact alternative_leaves test consequent rest₂ hrest₂
      · next hwhile =>
        have hrest := h.of_cons (by rw [hwhile]; decide)
        apply Leaves.once
        apply Leaves.behind
        apply Leaves.bind (condition_leaves _ _ hrest)
        intro test rest₁ fits₁ hrest₁
        exact (statement_leaves rest₁ hrest₁).map _
      · next hprint =>
        have hrest := h.of_cons (by rw [hprint]; decide)
        exact (((terminated_leaves _ hrest).map _).behind t).once
      · next hreturn =>
        have hrest := h.of_cons (by rw [hreturn]; decide)
        exact ((result_leaves t hrest).behind t).once
      -- A block cannot start here: delimited tokens have no opening brace.
      · next hbrace => exact absurd hbrace h.kind_ne_lBrace
      · exact (terminated_leaves _ h).map _
termination_by 10 * tokens.length + 2

/-- The other branch of a condition leaves what a statement does, and nothing is read without
    one. -/
theorem alternative_leaves (test : Expr) (consequent : Stmt) (tokens : List Token) :
    Delimited.OrNil tokens →
      (alternative stop test consequent tokens).Leaves Delimited.OrNil Delimited := by
  cases tokens with
  | nil =>
    intro h
    rw [alternative]
    exact leaves_pure h
  | cons t rest =>
    intro hor
    -- Delimited tokens may be at their end here, but then there is no `else` to read.
    have h := hor.resolve_left (List.cons_ne_nil t rest)
    rw [alternative]
    split
    · next helse =>
      have hrest := h.of_cons (by rw [helse]; decide)
      exact (((statement_leaves rest hrest).map _).behind t).maybe
    · exact leaves_pure h.orNil
termination_by 10 * tokens.length

end

/-- A declaration leaves what a statement may leave, and a function is always stuck. -/
theorem declared_leaves {t : Token} {rest : List Token} (h : Delimited (t :: rest)) :
    (declared stop t rest).Leaves Delimited.OrNil Delimited := by
  rw [declared]
  split
  · next hvariable =>
    have hrest := h.of_cons (by rw [hvariable]; decide)
    exact ((variableDeclaration_leaves hrest).behind t).once
  · next hfunction =>
    have hrest := h.of_cons (by rw [hfunction]; decide)
    apply Leaves.once
    apply Leaves.behind
    -- There is no brace for the body of a function, so its head is never read to the end.
    exact Leaves.bind (signature_leaves hrest) fun _ _ _ hnone => hnone.elim
  · exact statement_leaves stop (t :: rest) h

end

/-! ## Recovery -/

/-- Recovery goes on behind a semicolon whatever comes there, so at the latest behind the last
    one. -/
theorem resumeBehind_delimited {previous : Token} {tokens : List Token}
    (h : Delimited (previous :: tokens)) (more : List Token) :
    resumeBehind previous (tokens ++ more) = resumeBehind previous tokens ++ more ∧
      Delimited.OrNil (resumeBehind previous tokens) := by
  induction tokens generalizing previous with
  | nil =>
    cases h with
    | last hsemi =>
      refine ⟨?_, .inl rfl⟩
      cases more with
      | nil => rfl
      | cons t more => exact if_pos (.inl hsemi)
    | cons _ hnil => exact absurd rfl hnil.ne_nil
  | cons t rest ih =>
    rw [List.cons_append, resumeBehind, resumeBehind]
    split
    · exact ⟨rfl, h.tail⟩
    -- Recovery has not stopped behind this token, so it is no semicolon and others are left.
    · next hgo => exact ih (h.of_cons fun hsemi => hgo (.inl hsemi))

/-- Recovery stops behind the last semicolon at the latest, so it sees none of the tokens behind. -/
theorem resume_delimited {tokens : List Token} (h : Delimited tokens) (more : List Token) :
    resume (tokens ++ more) = resume tokens ++ more ∧ Delimited.OrNil (resume tokens) := by
  cases tokens with
  | nil => exact absurd rfl h.ne_nil
  | cons t rest => exact resumeBehind_delimited h more

section

variable (stop stop' : Token) {more : List Token}

/-- A declaration is read or recovered from within delimited tokens, whatever comes behind them. -/
theorem declaration_delimited (hmore : starts .elseWord more = false) {t : Token}
    {rest : List Token} (h : Delimited (t :: rest)) :
    (declaration stop t rest).ExtendedBy more (declaration stop' t (rest ++ more)) ∧
      Delimited.OrNil (declaration stop t rest).rest := by
  have hleaves := declared_leaves stop h
  have hlocal := declared_local stop stop' hmore t rest
  rw [declaration, declaration]
  generalize declared stop t rest = s, declared stop' t (rest ++ more) = s' at hleaves hlocal
  cases s with
  | done statement rest' notes fits =>
    cases hlocal (.inr rfl)
    exact ⟨⟨rfl, rfl, rfl⟩, hleaves⟩
  | stuck fault rest' notes fits =>
    have hdelimited : Delimited rest' := hleaves
    cases hlocal hdelimited.ne_nil
    obtain ⟨hresume, hleft⟩ := resume_delimited hdelimited more
    -- There is a token to blame among those that are left, so the end is not.
    obtain ⟨u, others, rfl⟩ := List.exists_cons_of_ne_nil hdelimited.ne_nil
    exact ⟨⟨rfl, hresume, rfl⟩, hleft⟩

/-- Delimited tokens, with errors or without, and any others behind them that do not start with
    `else` are read as they are on their own. -/
theorem declarations_delimited (hmore : starts .elseWord more = false) {tokens : List Token}
    (h : Delimited.OrNil tokens) :
    declarations stop' (tokens ++ more) =
      ((declarations stop tokens).1 ++ (declarations stop' more).1,
        (declarations stop tokens).2 ++ (declarations stop' more).2) := by
  obtain rfl | h := h
  · rw [List.nil_append, declarations]
    rfl
  -- One declaration is read or recovered from at a time, and leaves nothing or delimited tokens, to
  -- which this applies again.
  cases tokens with
  | nil => exact absurd rfl h.ne_nil
  | cons t rest =>
    obtain ⟨hfirst, hrest⟩ := declaration_delimited stop stop' hmore h
    have hlength := (declaration stop t rest).fits
    rw [List.cons_append, declarations_cons, declarations_cons, hfirst.statement?, hfirst.notes,
      hfirst.rest, declarations_delimited hmore hrest, List.append_assoc, List.append_assoc]
termination_by tokens.length

end

end Grammar

/-! ## Programs -/

namespace Parsed

/-- The parser reads the declarations in front of the first end mark. -/
theorem ofTokens_eq (tokens : List Token) :
    ofTokens tokens =
      ⟨⟨(Grammar.declarations (stopOf tokens) (front tokens)).1⟩,
        (Grammar.declarations (stopOf tokens) (front tokens)).2⟩ := rfl

/-- In front of other tokens, tokens without an end mark are all there to be parsed. -/
theorem front_append {tokens : List Token} (h : ∀ t ∈ tokens, t.kind ≠ .eof) (more : List Token) :
    front (tokens ++ more) = tokens ++ front more :=
  List.takeWhile_append_of_pos fun t ht => bne_iff_ne.2 (h t ht)

/-- In front of at least one other token, tokens without an end mark have no part in what ends the
    list. -/
theorem stopOf_append {tokens more : List Token} (h : ∀ t ∈ tokens, t.kind ≠ .eof)
    (hne : more ≠ []) : stopOf (tokens ++ more) = stopOf more := by
  have hnone : tokens.find? (·.kind == .eof) = none :=
    List.find?_eq_none.2 fun t ht heof => h t ht (beq_iff_eq.1 heof)
  rw [stopOf, stopOf, List.find?_append, hnone, Option.none_or,
    List.getLast?_append_of_ne_nil _ hne]

/-- **An error stays in front of the next semicolon.** Tokens that end with a semicolon and have no
    opening brace and no end mark among them, whatever is wrong with them, and any others behind
    them that do not start with `else`: both make the statements and the diagnostics that they make
    on their own. -/
theorem ofTokens_append_of_semi {tokens more : List Token}
    (hsemi : ∃ t, tokens.getLast? = some t ∧ t.kind = .semi)
    (hflat : ∀ t ∈ tokens, t.kind ≠ .lBrace ∧ t.kind ≠ .eof)
    (helse : ∀ t, more.head? = some t → t.kind ≠ .elseWord) :
    ofTokens (tokens ++ more) =
      ⟨⟨(ofTokens tokens).program.statements ++ (ofTokens more).program.statements⟩,
        (ofTokens tokens).diagnostics ++ (ofTokens more).diagnostics⟩ := by
  have hdelimited : Delimited tokens := .of_getLast? hsemi fun t ht => (hflat t ht).1
  have heof : ∀ t ∈ tokens, t.kind ≠ .eof := fun t ht => (hflat t ht).2
  have hfront : front tokens = tokens := by simpa [front] using front_append heof []
  cases more with
  | nil => simp [ofTokens, Grammar.declarations]
  | cons u others =>
    -- The end mark is the one of the tokens behind, as there is none among those in front.
    have hstop := stopOf_append heof (List.cons_ne_nil u others)
    have hmore : Grammar.starts .elseWord (front (u :: others)) = false := by
      rw [front, List.takeWhile_cons]
      split
      · exact beq_eq_false_iff_ne.2 (helse u rfl)
      · rfl
    have hparts :=
      Grammar.declarations_delimited (stopOf tokens) (stopOf (u :: others)) hmore hdelimited.orNil
    rw [ofTokens_eq, ofTokens_eq tokens, ofTokens_eq (u :: others), front_append heof, hstop,
      hfront, hparts]

/-- In `variable = print x;` the keyword is read again after the error in front of it, and the
    parenthesis at the start of `); y;` is another error. -/
theorem ofTokens_append_of_semi_resumed :
    ofTokens
      ([.plain .variableWord "variable" ⟨0, 8, 1⟩, .plain .eq "=" ⟨9, 10, 1⟩,
        .plain .printWord "print" ⟨11, 16, 1⟩, .plain .identifier "x" ⟨17, 18, 1⟩,
        .plain .semi ";" ⟨18, 19, 1⟩] ++
        [.plain .rParen ")" ⟨20, 21, 1⟩, .plain .semi ";" ⟨21, 22, 1⟩,
          .plain .identifier "y" ⟨23, 24, 1⟩, .plain .semi ";" ⟨24, 25, 1⟩, .eof 25 1]) =
      ⟨⟨[.print (.plain .printWord "print" ⟨11, 16, 1⟩)
        (.name (.plain .identifier "x" ⟨17, 18, 1⟩))] ++
          [.expression (.name (.plain .identifier "y" ⟨23, 24, 1⟩))]⟩,
        [.syntactic (.plain .eq "=" ⟨9, 10, 1⟩) .variableName] ++
          [.syntactic (.plain .rParen ")" ⟨20, 21, 1⟩) .expression]⟩ := by
  rw [ofTokens_append_of_semi ⟨.plain .semi ";" ⟨18, 19, 1⟩, rfl, rfl⟩ (by decide)
    (by rintro t ⟨⟩; decide)]
  cbv

end Parsed

end Treewalk
