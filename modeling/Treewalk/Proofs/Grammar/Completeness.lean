import Treewalk.Grammar.Statement
import Treewalk.Proofs.Grammar.ExpressionCompleteness

/-!
# Every program in normal form is read back

If a list of tokens spells a program in normal form, then the parser makes this program of it and
finds nothing wrong. The main statement is `Parsed.ofTokens_of_spells`.

A conditional takes an `else` behind it, so a statement that ends in a conditional without
alternative is read back only if no `else` follows (`Grammar.statement_yields`). What follows a
declaration is another one, a closing brace or the end, and none of these is an `else`.
-/

namespace Treewalk

/-! ## What a declaration starts with -/

/-- The symbols that a statement may start with which is no declaration. -/
def Symbol.startsBranch (s : Symbol) : Bool :=
  s.startsExpression ||
    match s with
    | fixed kind =>
      match kind with
      | .ifWord | .whileWord | .printWord | .returnWord | .lBrace => true
      | .readNumberWord | .readStringWord | .readBooleanWord => true
      | _ => false
    | _ => false

/-- The symbols that a declaration may start with. -/
def Symbol.startsDeclaration (s : Symbol) : Bool :=
  s.startsBranch || s == .fixed .variableWord || s == .fixed .functionWord

/-- What starts an expression starts a branch. -/
theorem Symbol.startsBranch_of_startsExpression {s : Symbol} (h : s.startsExpression = true) :
    s.startsBranch = true := by
  unfold startsBranch
  rw [h, Bool.true_or]

/-- What starts a branch starts a declaration. -/
theorem Symbol.startsDeclaration_of_startsBranch {s : Symbol} (h : s.startsBranch = true) :
    s.startsDeclaration = true := by
  rw [startsDeclaration, h]
  rfl

/-- A statement that is no declaration starts with a symbol that can start one. -/
theorem Stmt.exists_branch_head {s : Stmt} (hbranch : s.isDeclaration = false) :
    ∃ slot slots, s.slots = slot :: slots ∧ slot.symbol.startsBranch = true := by
  cases s with
  | expression value =>
    obtain ⟨slot, slots, hslots, hstart⟩ := value.exists_head
    refine ⟨slot, slots ++ [.ofKind .semi], ?_, Symbol.startsBranch_of_startsExpression hstart⟩
    rw [Stmt.slots, hslots]
    rfl
  | read kind keyword target => exact ⟨_, _, rfl, by cases kind <;> rfl⟩
  | declare | function => exact nomatch hbranch
  | _ => exact ⟨_, _, rfl, rfl⟩

/-- A statement starts with a symbol that can start a declaration. -/
theorem Stmt.exists_head (s : Stmt) :
    ∃ slot slots, s.slots = slot :: slots ∧ slot.symbol.startsDeclaration = true := by
  cases hbranch : s.isDeclaration with
  | false =>
    obtain ⟨slot, slots, hslots, hstart⟩ := exists_branch_head hbranch
    exact ⟨slot, slots, hslots, Symbol.startsDeclaration_of_startsBranch hstart⟩
  | true =>
    cases s with
    | declare | function => exact ⟨_, _, rfl, rfl⟩
    | _ => exact nomatch hbranch

/-- The tokens of a statement start with one that can start a declaration. -/
theorem Spells.exists_declaration_head {s : Stmt} {tokens : List Token}
    (h : Spells s.slots tokens) :
    ∃ t rest, tokens = t :: rest ∧ t.symbol.startsDeclaration = true := by
  obtain ⟨slot, slots, hslots, hstart⟩ := s.exists_head
  rw [hslots] at h
  obtain ⟨t, rest, rfl, hfirst, -⟩ := h.exists_cons
  exact ⟨t, rest, rfl, by rw [hfirst.1]; exact hstart⟩

namespace Grammar

open Step

/-- No declaration goes on with an `else`, so what follows it does not start with one. -/
theorem not_starts_else {body : List Stmt} {tokens rest : List Token}
    (h : Spells (Stmt.slotsOf body) tokens) (hrest : starts .elseWord rest = false) :
    starts .elseWord (tokens ++ rest) = false := by
  cases body with
  | nil =>
    obtain rfl := h.eq_nil
    exact hrest
  | cons s body =>
    obtain ⟨ts, _, rfl, hspells, -⟩ := h.exists_append
    obtain ⟨t, others, rfl, hstart⟩ := hspells.exists_declaration_head
    exact beq_eq_false_iff_ne.2 (Token.kind_ne_of_symbol hstart rfl rfl)

/-! ## Parts of statements -/

/-- An expression is read up to the semicolon behind it. -/
theorem terminated_yields {e : Expr} (hn : e.Normal) {tokens : List Token}
    (h : Spells e.slots tokens)
    {closing : Token} (hsemi : closing.kind = .semi) (fault : SyntaxFault) (rest : List Token) :
    (terminated fault (tokens ++ closing :: rest)).Yields e rest := by
  have hends : Ends (closing :: rest) := ends_cons (by rw [hsemi]; rfl)
  rw [terminated]
  apply yields_once
  apply yields_bind (expression_yields hn h hends)
  intro fits
  exact yields_map (fun _ => e) (yields_expect fault rest hsemi)

/-- An initializer is read from the tokens that spell it, up to the semicolon. -/
theorem initializer_yields {init : Option Expr} (hn : ∀ e ∈ init, e.Normal) {tokens : List Token}
    (h : Spells (Expr.initializerSlots init) tokens) {closing : Token}
    (hsemi : closing.kind = .semi) (rest : List Token) :
    (initializer (tokens ++ closing :: rest)).Yields init (closing :: rest) := by
  cases init with
  | none =>
    obtain rfl := h.eq_nil
    rw [List.nil_append, initializer, if_neg (by simp [hsemi])]
    exact yields_pure none (closing :: rest)
  | some e =>
    obtain ⟨equals, te, rfl, hequals, hspells⟩ := h.exists_cons
    have heq := hequals.kind_eq
    -- The semicolon is none of the tokens that could go on with an expression.
    have hends : Ends (closing :: rest) := ends_cons (by rw [hsemi]; rfl)
    rw [List.cons_append, initializer, if_pos heq]
    exact yields_maybe (yields_behind equals
      (yields_map some (expression_yields (hn e rfl) hspells hends)))

/-- The parameters behind the first one are read from the tokens that spell them. -/
theorem parametersMore_yields {params : List Token} {tokens : List Token}
    (h : Spells (Token.slotsBehind params) tokens) {closing : Token} (hne : closing.kind ≠ .comma)
    (rest : List Token) :
    (parametersMore (tokens ++ closing :: rest)).Yields params (closing :: rest) := by
  -- Each parameter behind the first one is spelled by a comma and a name.
  induction params generalizing tokens with
  | nil =>
    obtain rfl := h.eq_nil
    rw [List.nil_append, parametersMore, if_neg hne]
    exact yields_pure [] (closing :: rest)
  | cons name params ih =>
    rw [Token.slotsBehind, List.flatMap_cons] at h
    obtain ⟨t, _, rfl, hfirst, hothers⟩ := h.exists_cons
    obtain ⟨t', others, rfl, hname, hspells⟩ := hothers.exists_cons
    obtain ⟨rfl, hkind⟩ := TokenSlot.admits_ofName.1 hname
    have hcomma := hfirst.kind_eq
    rw [List.cons_append, List.cons_append, parametersMore, if_pos hcomma]
    apply yields_maybe
    apply yields_behind t
    apply yields_bind (yields_expect .parameterName _ hkind)
    intro fits
    exact yields_map (t' :: ·) (ih hspells)

/-- Parameters are read from the tokens that spell them, up to the parenthesis. -/
theorem parameters_yields {params : List Token} {tokens : List Token}
    (h : Spells (Token.slotsOf params) tokens) {closing : Token} (hparen : closing.kind = .rParen)
    (rest : List Token) :
    (parameters (tokens ++ closing :: rest)).Yields params (closing :: rest) := by
  cases params with
  | nil =>
    obtain rfl := h.eq_nil
    have hstarts : starts .rParen (closing :: rest) = true := beq_iff_eq.2 hparen
    rw [List.nil_append, parameters, if_pos hstarts]
    exact yields_pure [] (closing :: rest)
  | cons name params =>
    obtain ⟨t, others, rfl, hname, hothers⟩ := h.exists_cons
    obtain ⟨rfl, hkind⟩ := TokenSlot.admits_ofName.1 hname
    -- A name in front says that there is a first parameter.
    have hstarts : ¬ starts .rParen (t :: others ++ closing :: rest) = true := by
      simp [starts, hkind]
    rw [parameters, if_neg hstarts, List.cons_append]
    apply yields_maybe
    apply yields_bind (yields_expect .parameterName _ hkind)
    intro fits
    exact yields_map (t :: ·) (parametersMore_yields hothers (by simp [hparen]) rest)

/-- A variable declaration is read behind its keyword. -/
theorem variableDeclaration_yields {name : Token} (hidentifier : name.kind = .identifier)
    {init : Option Expr} (hn : ∀ e ∈ init, e.Normal) {tokens : List Token}
    (h : Spells (Expr.initializerSlots init) tokens) {closing : Token}
    (hsemi : closing.kind = .semi) (rest : List Token) :
    (variableDeclaration (name :: (tokens ++ closing :: rest))).Yields
      (.declare name init) rest := by
  rw [variableDeclaration]
  apply yields_once
  apply yields_bind (yields_expect .variableName _ hidentifier)
  intro fits
  apply yields_bind (initializer_yields hn h hsemi rest)
  intro fits
  exact yields_map (fun _ => Stmt.declare name init) (yields_expect .semiAfterVariable rest hsemi)

/-- The head of a function is read behind its keyword. -/
theorem signature_yields {name : Token} (hidentifier : name.kind = .identifier)
    {params : List Token}
    {tokens : List Token} (h : Spells (Token.slotsOf params) tokens) {opening closing brace : Token}
    (hopening : opening.kind = .lParen) (hclosing : closing.kind = .rParen)
    (hbrace : brace.kind = .lBrace) (rest : List Token) :
    (signature (name :: opening :: (tokens ++ closing :: brace :: rest))).Yields
      (name, params) rest := by
  -- The name, the parentheses and the brace are there, so that no part of the head is stuck.
  rw [signature]
  apply yields_once
  apply yields_bind (yields_expect .functionName _ hidentifier)
  intro fits
  apply yields_bind (yields_expect .parenAfterFunctionName _ hopening)
  intro fits
  apply yields_bind (parameters_yields h hclosing (brace :: rest))
  intro fits
  apply yields_bind (yields_expect .parenAfterParameters _ hclosing)
  intro fits
  exact yields_map (fun _ => (name, params)) (yields_expect .braceBeforeBody rest hbrace)

/-- A return statement is read behind its keyword. -/
theorem result_yields (keyword : Token) {value : Option Expr} (hn : ∀ e ∈ value, e.Normal)
    {tokens : List Token} (h : Spells (Expr.optionalSlots value) tokens) {closing : Token}
    (hsemi : closing.kind = .semi) (rest : List Token) :
    (result keyword (tokens ++ closing :: rest)).Yields (.result keyword value) rest := by
  cases value with
  | none =>
    obtain rfl := h.eq_nil
    rw [List.nil_append, result, if_pos hsemi]
    exact yields_behind closing (yields_pure (Stmt.result keyword none) rest)
  | some e =>
    have hread := terminated_yields (hn e rfl) h hsemi .semiAfterReturn rest
    obtain ⟨t, others, rfl, hstart⟩ := Spells.exists_head h
    -- The value starts an expression, and a semicolon does not, so the value is not passed over.
    have hne : t.kind ≠ .semi := Token.kind_ne_of_symbol hstart rfl rfl
    rw [List.cons_append, result, if_neg hne]
    exact yields_map (fun e => Stmt.result keyword (some e)) hread

/-- A condition is read from the tokens that spell it, in its parentheses. -/
theorem condition_yields {e : Expr} (hn : e.Normal) {tokens : List Token}
    (h : Spells e.slots tokens)
    {t closing : Token} (hopen : t.kind = .lParen) (hclose : closing.kind = .rParen)
    (opening closed : SyntaxFault) (rest : List Token) :
    (condition opening closed (t :: (tokens ++ closing :: rest))).Yields e rest := by
  have hends : Ends (closing :: rest) := ends_cons (by rw [hclose]; rfl)
  rw [condition]
  apply yields_once
  apply yields_bind (yields_expect opening _ hopen)
  intro fits
  apply yields_bind (expression_yields hn h hends)
  intro fits
  exact yields_map (fun _ => e) (yields_expect closed rest hclose)

/-- Without an `else`, a conditional has no alternative. -/
theorem alternative_stops (stop : Token) (test : Expr) (consequent : Stmt) {rest : List Token}
    (h : starts .elseWord rest = false) :
    (alternative stop test consequent rest).Yields (.ifThen test consequent) rest := by
  cases rest with
  | nil =>
    rw [alternative]
    exact yields_pure (Stmt.ifThen test consequent) []
  | cons t rest =>
    rw [alternative, if_neg (beq_eq_false_iff_ne.1 h)]
    exact yields_pure (Stmt.ifThen test consequent) (t :: rest)

/-- A token that starts an expression starts an expression statement. -/
theorem statement_of_startsExpression (stop : Token) {t : Token} (rest : List Token)
    (h : t.symbol.startsExpression = true) :
    statement stop (t :: rest) = (terminated .semiAfterExpression (t :: rest)).map .expression := by
  have hne {kind : Kind} (hfixed : kind.isFixed = true)
      (hkind : (Symbol.fixed kind).startsExpression = false) : t.kind ≠ kind :=
    Token.kind_ne_of_symbol h hfixed hkind
  -- All other statements start with a keyword that starts no expression.
  rw [statement]
  split
  · next kind hread =>
    have hkind := kind_of_readKind? hread
    cases kind
    · exact absurd hkind.symm (hne rfl rfl)
    · exact absurd hkind.symm (hne rfl rfl)
    · exact absurd hkind.symm (hne rfl rfl)
  · split
    · next hkind => exact absurd hkind (hne rfl rfl)
    · next hkind => exact absurd hkind (hne rfl rfl)
    · next hkind => exact absurd hkind (hne rfl rfl)
    · next hkind => exact absurd hkind (hne rfl rfl)
    · next hkind => exact absurd hkind (hne rfl rfl)
    · rfl

/-- What can start a branch starts no variable and no function. -/
theorem declared_of_startsBranch (stop : Token) {t : Token} (rest : List Token)
    (h : t.symbol.startsBranch = true) : declared stop t rest = statement stop (t :: rest) := by
  rw [declared]
  split
  · next hkind => exact absurd hkind (Token.kind_ne_of_symbol h rfl rfl)
  · next hkind => exact absurd hkind (Token.kind_ne_of_symbol h rfl rfl)
  · rfl

/-- A declaration that is read is not recovered from. -/
theorem declaration_of_yields {stop t : Token} {tokens rest : List Token} {s : Stmt}
    (h : (declared stop t tokens).Yields s rest) :
    ∃ fits, declaration stop t tokens = ⟨some s, rest, [], fits⟩ := by
  rw [declaration]
  cases hstep : declared stop t tokens with
  | stuck fault rest' notes fits =>
    rw [hstep] at h
    exact h.elim
  | done s' rest' notes fits =>
    rw [hstep] at h
    obtain ⟨rfl, rfl, rfl⟩ := h
    exact ⟨fits, rfl⟩

/-! ## Statements -/

mutual

/-- A statement that is no declaration is read from the tokens that spell it. If it could go on with
    an alternative, none may follow. -/
theorem statement_yields (stop : Token) {s : Stmt} (hn : s.Normal)
    (hbranch : s.isDeclaration = false)
    {tokens : List Token} (h : Spells s.slots tokens) {rest : List Token}
    (hopen : s.endsOpen = true → starts .elseWord rest = false) :
    (statement stop (tokens ++ rest)).Yields s rest := by
  cases hn with
  | @expression value hvalue =>
    obtain ⟨tv, _, rfl, hspells, hothers⟩ := h.exists_append
    obtain ⟨closing, _, rfl, hclosing, hnil⟩ := hothers.exists_cons
    obtain rfl := hnil.eq_nil
    have hsemi := hclosing.kind_eq
    have hread := terminated_yields hvalue hspells hsemi .semiAfterExpression rest
    obtain ⟨t, others, rfl, hstart⟩ := hspells.exists_head
    rw [List.append_assoc, List.cons_append, List.cons_append,
      statement_of_startsExpression stop _ hstart]
    exact yields_map Stmt.expression hread
  | @print keyword value hvalue =>
    obtain ⟨t, tv, closing, rfl, hfirst, hspells, hclosing⟩ := h.exists_enclosed
    obtain ⟨rfl, hsymbol⟩ := TokenSlot.admits_kept.1 hfirst
    have hkind := Token.kind_of_symbol hsymbol
    have hread := terminated_yields hvalue hspells hclosing.kind_eq .semiAfterValue rest
    rw [List.cons_append, List.append_assoc, statement]
    simp only [hkind, readKind?]
    apply yields_once
    apply yields_behind t
    exact yields_map (Stmt.print t) hread
  | @read what keyword target htarget =>
    obtain ⟨t, tv, closing, rfl, hfirst, hspells, hclosing⟩ := h.exists_enclosed
    obtain ⟨rfl, hsymbol⟩ := TokenSlot.admits_kept.1 hfirst
    have hread := terminated_yields htarget hspells hclosing.kind_eq .semiAfterReadTarget rest
    rw [List.cons_append, List.append_assoc, statement]
    simp only [Token.kind_of_symbol hsymbol, readKind?_kind]
    apply yields_once
    apply yields_behind t
    exact yields_map (Stmt.read what t) hread
  | @result keyword value hvalue =>
    obtain ⟨t, tv, closing, rfl, hfirst, hspells, hclosing⟩ := h.exists_enclosed
    obtain ⟨rfl, hsymbol⟩ := TokenSlot.admits_kept.1 hfirst
    have hkind := Token.kind_of_symbol hsymbol
    have hread := result_yields t hvalue hspells hclosing.kind_eq rest
    rw [List.cons_append, List.append_assoc, statement]
    simp only [hkind, readKind?]
    apply yields_once
    exact yields_behind t hread
  | @block body hbody =>
    obtain ⟨t, tb, closing, rfl, hfirst, hspells, hclosing⟩ := h.exists_enclosed
    have hkind := hfirst.kind_eq
    have hread := block_yields stop hbody hspells hclosing.kind_eq rest
    rw [List.cons_append, List.append_assoc, statement]
    simp only [hkind, readKind?]
    apply yields_once
    apply yields_behind t
    exact yields_map Stmt.block hread
  | @ifThen test consequent htest hconsequent hconsequentBranch =>
    obtain ⟨t, opening, te, closing, tc, rfl, hkind, hopening, hspells, hclosing, hspells'⟩ :=
      h.exists_condition
    have hcondition := condition_yields htest hspells hopening hclosing .parenAfterIf
      .parenAfterIfCondition (tc ++ rest)
    -- What follows the branch follows the conditional, so there is no `else`.
    have hbranch := statement_yields stop hconsequent hconsequentBranch hspells' fun _ => hopen rfl
    rw [List.cons_append, List.cons_append, List.append_assoc, List.cons_append, statement]
    simp only [hkind, readKind?]
    apply yields_once
    apply yields_behind t
    apply yields_bind hcondition
    intro fits
    apply yields_bind hbranch
    intro fits'
    exact alternative_stops stop test consequent (hopen rfl)
  | @ifThenElse test consequent other htest hconsequent hconsequentBranch hclosed hother
    hotherBranch =>
    obtain ⟨t, opening, te, closing, _, rfl, hkind, hopening, hspells, hclosing, hbranches⟩ :=
      h.exists_condition
    obtain ⟨tc, _, rfl, hspellsConsequent, hbehind⟩ := hbranches.exists_append
    obtain ⟨te', to', rfl, helse, hspellsOther⟩ := hbehind.exists_cons
    have hcondition := condition_yields htest hspells hopening hclosing .parenAfterIf
      .parenAfterIfCondition (tc ++ te' :: to' ++ rest)
    -- The first branch ends in no conditional that could take the `else`.
    have hnotOpen : consequent.endsOpen = true → starts .elseWord (te' :: (to' ++ rest)) = false :=
      fun htrue => absurd htrue (ne_true_of_eq_false hclosed)
    have hbranch := statement_yields stop hconsequent hconsequentBranch hspellsConsequent hnotOpen
    have halternative := statement_yields stop hother hotherBranch hspellsOther hopen
    rw [List.append_assoc, List.cons_append] at hcondition
    rw [List.cons_append, List.cons_append, List.append_assoc, List.cons_append, List.append_assoc,
      List.cons_append, statement]
    simp only [hkind, readKind?]
    apply yields_once
    apply yields_behind t
    apply yields_bind hcondition
    intro fits
    apply yields_bind hbranch
    intro fits'
    rw [alternative, if_pos helse.kind_eq]
    apply yields_maybe
    apply yields_behind te'
    exact yields_map (Stmt.ifThenElse test consequent) halternative
  | @loop test body htest hbody hbodyBranch =>
    obtain ⟨t, opening, te, closing, tb, rfl, hkind, hopening, hspells, hclosing, hspells'⟩ :=
      h.exists_condition
    have hcondition := condition_yields htest hspells hopening hclosing .parenAfterWhile
      .parenAfterWhileCondition (tb ++ rest)
    have hbranch := statement_yields stop hbody hbodyBranch hspells' hopen
    rw [List.cons_append, List.cons_append, List.append_assoc, List.cons_append, statement]
    simp only [hkind, readKind?]
    apply yields_once
    apply yields_behind t
    apply yields_bind hcondition
    intro fits
    exact yields_map (Stmt.loop test) hbranch
  | declare | function => exact nomatch hbranch
termination_by (sizeOf s, 0)

/-- A declaration is read from the tokens that spell it, if no alternative follows. -/
theorem declared_yields (stop : Token) {s : Stmt} (hn : s.Normal) {t : Token} {tokens : List Token}
    (h : Spells s.slots (t :: tokens)) {rest : List Token} (hrest : starts .elseWord rest = false) :
    (declared stop t (tokens ++ rest)).Yields s rest := by
  cases hbranch : s.isDeclaration with
  | false =>
    obtain ⟨slot, slots, hslots, hstart⟩ := Stmt.exists_branch_head hbranch
    -- A branch is read as a statement, and its first token says that it is no declaration.
    have hread := statement_yields stop hn hbranch h fun _ => hrest
    rw [hslots] at h
    obtain ⟨t', _, heq, hfirst, -⟩ := h.exists_cons
    obtain ⟨rfl, -⟩ := List.cons.inj heq
    rw [← hfirst.1] at hstart
    rw [declared_of_startsBranch stop _ hstart]
    exact hread
  | true =>
    cases hn with
    | @declare name init hinit =>
      obtain ⟨_, _, heq, hfirst, hothers⟩ := h.exists_cons
      obtain ⟨rfl, rfl⟩ := List.cons.inj heq
      obtain ⟨t', _, rfl, hname, hothers'⟩ := hothers.exists_cons
      obtain ⟨ti, _, rfl, hspells, hbehind⟩ := hothers'.exists_append
      obtain ⟨closing, _, rfl, hclosing, hnil⟩ := hbehind.exists_cons
      obtain rfl := hnil.eq_nil
      obtain ⟨rfl, hidentifier⟩ := TokenSlot.admits_ofName.1 hname
      have hkind := hfirst.kind_eq
      -- The tokens fall into the keyword, the name, the initializer and the semicolon.
      have hread := variableDeclaration_yields hidentifier hinit hspells hclosing.kind_eq rest
      rw [List.cons_append, List.append_assoc, declared]
      simp only [hkind]
      apply yields_once
      exact yields_behind t hread
    | @function name params body hbody =>
      obtain ⟨_, _, heq, hfirst, hothers⟩ := h.exists_cons
      obtain ⟨rfl, rfl⟩ := List.cons.inj heq
      obtain ⟨t', _, rfl, hname, hothers'⟩ := hothers.exists_cons
      obtain ⟨opening, _, rfl, hopening, hbehind⟩ := hothers'.exists_cons
      obtain ⟨tp, _, rfl, hspells, hbehind'⟩ := hbehind.exists_append
      obtain ⟨closing, _, rfl, hclosing, hlast⟩ := hbehind'.exists_cons
      obtain ⟨brace, tb, brace', rfl, hbrace, hspells', hbrace'⟩ := hlast.exists_enclosed
      obtain ⟨rfl, hidentifier⟩ := TokenSlot.admits_ofName.1 hname
      -- The tokens fall into the keyword, the head, the statements of the body and the brace.
      have hsignature := signature_yields hidentifier hspells hopening.kind_eq hclosing.kind_eq
        hbrace.kind_eq (tb ++ brace' :: rest)
      have hkind := hfirst.kind_eq
      rw [List.cons_append, List.cons_append, List.append_assoc, List.cons_append, List.cons_append,
        List.append_assoc, declared]
      simp only [hkind]
      apply yields_once
      apply yields_behind t
      apply yields_bind hsignature
      intro fits
      exact yields_map (Stmt.function t' params)
        (block_yields stop hbody hspells' hbrace'.kind_eq rest)
    | _ => exact nomatch hbranch
termination_by (sizeOf s, 1)

/-- The statements of a block are read from the tokens that spell them, up to the brace. -/
theorem block_yields (stop : Token) {body : List Stmt} (hn : ∀ s ∈ body, s.Normal)
    {tokens : List Token}
    (h : Spells (Stmt.slotsOf body) tokens) {closing : Token} (hbrace : closing.kind = .rBrace)
    (rest : List Token) : (block stop (tokens ++ closing :: rest)).Yields body rest := by
  cases body with
  | nil =>
    obtain rfl := h.eq_nil
    rw [List.nil_append, block, if_pos hbrace]
    exact yields_behind closing (yields_pure [] rest)
  | cons s body =>
    obtain ⟨_, tb, rfl, hspells, hothers⟩ := h.exists_append
    obtain ⟨t, ts, rfl, hstart⟩ := hspells.exists_declaration_head
    have hne : t.kind ≠ .rBrace := Token.kind_ne_of_symbol hstart rfl rfl
    -- What follows a statement in the block is another one or the brace, and neither is an
    -- alternative.
    have hrest : starts .elseWord (tb ++ closing :: rest) = false :=
      not_starts_else hothers (by rw [starts, hbrace]; rfl)
    obtain ⟨fits, hread⟩ := declaration_of_yields
      (declared_yields stop (hn s List.mem_cons_self) hspells hrest)
    rw [List.cons_append, List.cons_append, List.append_assoc, block, if_neg hne, hread]
    apply yields_within
    apply yields_precede
    apply yields_map (s :: ·)
    exact block_yields stop (fun s hs => hn s (List.mem_cons_of_mem _ hs)) hothers hbrace rest
termination_by (sizeOf body, 0)

end

/-- Declarations are read up to the end of the tokens. -/
theorem declarations_of_spells (stop : Token) {body : List Stmt} (hn : ∀ s ∈ body, s.Normal)
    {tokens : List Token} (h : Spells (Stmt.slotsOf body) tokens) :
    declarations stop tokens = (body, []) := by
  induction body generalizing tokens with
  | nil =>
    obtain rfl := h.eq_nil
    rw [declarations]
  | cons s body ih =>
    obtain ⟨_, tb, rfl, hspells, hothers⟩ := h.exists_append
    obtain ⟨t, ts, rfl, -⟩ := hspells.exists_declaration_head
    -- Behind a statement there is another one or nothing, and so no alternative.
    have hrest : starts .elseWord tb = false := by
      have hnone : starts .elseWord (tb ++ []) = false := not_starts_else hothers rfl
      rwa [List.append_nil] at hnone
    obtain ⟨fits, hread⟩ := declaration_of_yields
      (declared_yields stop (hn s List.mem_cons_self) hspells hrest)
    have hbody := ih (fun s hs => hn s (List.mem_cons_of_mem _ hs)) hothers
    rw [List.cons_append, declarations, hread]
    simp only [hbody]
    rfl

end Grammar

/-! ## Programs -/

/-- **Every program in normal form is read back.** Whatever the tokens are that spell it, and
    whatever stands behind an end mark, the parser makes exactly this program of them and finds
    nothing wrong. -/
theorem Parsed.ofTokens_of_spells {p : Program} (hn : p.Normal) {tokens tail : List Token}
    (h : Spells p.slots tokens) (htail : ∀ t ∈ tail.head?, t.kind = .eof) :
    Parsed.ofTokens (tokens ++ tail) = ⟨p, []⟩ := by
  have hfront : (tokens ++ tail).takeWhile (·.kind != .eof) = tokens := by
    have hnone : tail.takeWhile (·.kind != .eof) = [] := by
      cases tail with
      | nil => rfl
      | cons t tail => rw [List.takeWhile_cons, htail t rfl]; rfl
    rw [List.takeWhile_append_of_pos, hnone, List.append_nil]
    intro t ht
    exact bne_iff_ne.2 (h.kind_ne_eof (Stmt.written_slotsOf p.statements) t ht)
  rw [Parsed.ofTokens, hfront, Grammar.declarations_of_spells _ hn h]

/-- The text `if (x) x = -null * y; else {}` is read back from its tokens. -/
theorem Parsed.ofTokens_of_spells_conditional :
    Parsed.ofTokens
      ([.plain .ifWord "if" ⟨0, 2, 1⟩, .plain .lParen "(" ⟨3, 4, 1⟩,
        .plain .identifier "x" ⟨4, 5, 1⟩, .plain .rParen ")" ⟨5, 6, 1⟩,
        .plain .identifier "x" ⟨7, 8, 1⟩, .plain .eq "=" ⟨9, 10, 1⟩, .plain .minus "-" ⟨11, 12, 1⟩,
        .plain .nullWord "null" ⟨12, 16, 1⟩, .plain .star "*" ⟨17, 18, 1⟩,
        .plain .identifier "y" ⟨19, 20, 1⟩, .plain .semi ";" ⟨20, 21, 1⟩,
        .plain .elseWord "else" ⟨22, 26, 1⟩, .plain .lBrace "\x7b" ⟨27, 28, 1⟩,
        .plain .rBrace "\x7d" ⟨28, 29, 1⟩] ++ [.eof 29 1]) =
      ⟨⟨[.ifThenElse (.name (.plain .identifier "x" ⟨4, 5, 1⟩))
          (.expression (.assign (.plain .identifier "x" ⟨7, 8, 1⟩)
            (.binary .mul (.unary .neg (.literal .null) ⟨11, 12, 1⟩)
              (.name (.plain .identifier "y" ⟨19, 20, 1⟩)) ⟨17, 18, 1⟩)))
          (.block [])]⟩, []⟩ := by
  refine Parsed.ofTokens_of_spells ?_ ?_ ?_
  · -- The operator in front is tighter than the one behind it, and the assignment is the whole
    -- branch.
    refine List.forall_mem_singleton.2 (.ifThenElse (.name _) (.expression (.assign ?_)) rfl rfl
      (.block (List.forall_mem_nil _)) rfl)
    exact .binary (.unary (.literal .null) (by decide)) (.name _) (by decide) (by decide)
  · repeat' first
      | exact .nil
      | refine .cons ⟨rfl, ?_⟩ ?_
      | exact rfl
      | trivial
  · rintro t ⟨⟩
    rfl

end Treewalk
