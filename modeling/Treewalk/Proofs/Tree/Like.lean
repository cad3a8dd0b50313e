import Treewalk.Proofs.ForStd.Rel
import Treewalk.Proofs.Tree.Layer
import Treewalk.Tree.Sexpr

/-!
# Trees made of matching tokens

A source can be laid out in many ways. What stays the same is kept in a `Matching`: which tokens of
two sources match, and which of their spans. Matching tokens have the same kind, text and literal.
Two trees are *like* each other if they are of the same form throughout and made of matching tokens,
and this is a tree relation (`Matching.trees`).

Trees that are like each other have the same outline (`Matching.outline_eq`).
-/

namespace Treewalk

/-- Tokens that differ only in where they are. -/
structure Token.SameText (t t' : Token) : Prop where
  kind : t.kind = t'.kind
  lexeme : t.lexeme = t'.lexeme
  literal : t.literal = t'.literal

/-- A token has its own text. -/
theorem Token.SameText.refl (t : Token) : t.SameText t := ⟨rfl, rfl, rfl⟩

/-- Expressions that are of the same form throughout, of related tokens and spans. -/
inductive Expr.Like (token : Token → Token → Prop) (span : Span → Span → Prop) :
    Expr → Expr → Prop where
  | of_layer {e e' : Expr} (h : Expr.Layer (Like token span) token span e e') : Like token span e e'

/-- Statements that are of the same form throughout, of related tokens and spans. -/
inductive Stmt.Like (token : Token → Token → Prop) (span : Span → Span → Prop) :
    Stmt → Stmt → Prop where
  | of_layer {s s' : Stmt}
      (h : Stmt.Layer (Expr.Like token span) (Like token span)
        (List.Forall₂ (Like token span)) token s s') :
      Like token span s s'

/-- Which tokens of two sources match, and which of their spans. -/
structure Matching where
  token : Token → Token → Prop
  span : Span → Span → Prop
  sameText {t t' : Token} (h : token t t') : t.SameText t'
  span_of_token {t t' : Token} (h : token t t') : span t.span t'.span

namespace Matching

/-- Tokens with the same text match, wherever they are. -/
def anywhere : Matching where
  token := Token.SameText
  span _ _ := True
  sameText h := h
  span_of_token _ := trivial

/-- Tokens match if they have the same place in two lists. -/
def inStep {tokens tokens' : List Token} (h : List.Forall₂ Token.SameText tokens tokens') :
    Matching where
  token t t' := (t, t') ∈ tokens.zip tokens'
  span _ _ := True
  sameText hmem := List.forall₂_zip h hmem
  span_of_token _ := trivial

/-- Trees made of matching tokens. -/
def trees (c : Matching) : TreeRelation where
  expr := Expr.Like c.token c.span
  stmt := Stmt.Like c.token c.span
  body := List.Forall₂ (Stmt.Like c.token c.span)
  token := c.token
  span := c.span
  expr_layer | .of_layer h => h
  stmt_layer | .of_layer h => h
  body_layer
    | .nil => .nil
    | .cons h hothers => .cons h hothers
  lexeme_eq h := (c.sameText h).lexeme
  span_of_token := c.span_of_token

end Matching

/-! ## Trees that are like themselves

Tokens match themselves as far as their text goes, and so do trees. -/

namespace Matching

mutual

/-- An expression is like itself. -/
theorem expr_refl (e : Expr) : anywhere.trees.expr e e := by
  -- Layer by layer, with tokens that have their own text and any spans at all.
  cases e with
  | literal value => exact .of_layer (.literal value)
  | group inner => exact .of_layer (.group (expr_refl inner))
  | unary op operand s => exact .of_layer (.unary op (expr_refl operand) trivial)
  | binary op left right s =>
    exact .of_layer (.binary op (expr_refl left) (expr_refl right) trivial)
  | logical op left right => exact .of_layer (.logical op (expr_refl left) (expr_refl right))
  | assign t value => exact .of_layer (.assign (.refl t) (expr_refl value))
  | name t => exact .of_layer (.name (.refl t))
  | call callee args t =>
    exact .of_layer (.call (expr_refl callee) (exprs_refl args) (.refl t))
  | array elements => exact .of_layer (.array (exprs_refl elements))
  | index object position t =>
    exact .of_layer (.index (expr_refl object) (expr_refl position) (.refl t))
  | indexAssign object position value t =>
    exact .of_layer
      (.indexAssign (expr_refl object) (expr_refl position) (expr_refl value) (.refl t))
termination_by structural e

/-- Expressions are like themselves one by one. -/
theorem exprs_refl (es : List Expr) : List.Forall₂ anywhere.trees.expr es es := by
  cases es with
  | nil => exact .nil
  | cons e es => exact .cons (expr_refl e) (exprs_refl es)
termination_by structural es

end

/-- An expression that may be missing is like itself. -/
theorem expr?_refl (e? : Option Expr) : Option.Rel anywhere.trees.expr e? e? := by
  cases e? with
  | none => exact .none
  | some e => exact .some (expr_refl e)

mutual

/-- A statement is like itself. -/
theorem stmt_refl (s : Stmt) : anywhere.trees.stmt s s := by
  cases s with
  | expression value => exact .of_layer (.expression (expr_refl value))
  | print t value => exact .of_layer (.print (.refl t) (expr_refl value))
  | declare t init => exact .of_layer (.declare (.refl t) (expr?_refl init))
  | block body => exact .of_layer (.block (stmts_refl body))
  | ifThen condition consequent =>
    exact .of_layer (.ifThen (expr_refl condition) (stmt_refl consequent))
  | ifThenElse condition consequent alternative =>
    exact .of_layer
      (.ifThenElse (expr_refl condition) (stmt_refl consequent) (stmt_refl alternative))
  | loop condition body => exact .of_layer (.loop (expr_refl condition) (stmt_refl body))
  | function t params body =>
    -- Parameters are tokens, and not trees of their own.
    have hparams : List.Forall₂ Token.SameText params params :=
      List.forall₂_same.2 fun t _ => .refl t
    exact .of_layer (.function (.refl t) hparams (stmts_refl body))
  | result t value => exact .of_layer (.result (.refl t) (expr?_refl value))
  | read kind t target => exact .of_layer (.read kind (.refl t) (expr_refl target))
termination_by structural s

/-- Statements are like themselves one by one. -/
theorem stmts_refl (ss : List Stmt) : List.Forall₂ anywhere.trees.stmt ss ss := by
  cases ss with
  | nil => exact .nil
  | cons s ss => exact .cons (stmt_refl s) (stmts_refl ss)
termination_by structural ss

end

end Matching

/-! ## Outlines -/

/-- Tokens with the same text look the same in an outline. -/
theorem Token.SameText.sexpr_eq {t t' : Token} (h : t.SameText t') : t.sexpr = t'.sexpr :=
  congrArg Sexpr.leaf h.lexeme

namespace Matching

variable {c : Matching}

mutual

/-- The outline shows nothing of where tokens are. -/
theorem expr_sexpr_eq {e e' : Expr} (h : c.trees.expr e e') : e.sexpr = e'.sexpr := by
  -- An outline shows the lexemes of tokens and no places, and these are what tokens that are alike
  -- share.
  have htoken {t t' : Token} (ht : c.token t t') : t.sexpr = t'.sexpr := (c.sameText ht).sexpr_eq
  obtain ⟨hlayer⟩ := h
  cases hlayer with
  | literal value => rfl
  | group h => rw [Expr.sexpr, Expr.sexpr, expr_sexpr_eq h]
  | unary op h _ => rw [Expr.sexpr, Expr.sexpr, expr_sexpr_eq h]
  | binary op h₁ h₂ _ => rw [Expr.sexpr, Expr.sexpr, expr_sexpr_eq h₁, expr_sexpr_eq h₂]
  | logical op h₁ h₂ => rw [Expr.sexpr, Expr.sexpr, expr_sexpr_eq h₁, expr_sexpr_eq h₂]
  | assign ht h => rw [Expr.sexpr, Expr.sexpr, htoken ht, expr_sexpr_eq h]
  | name ht => rw [Expr.sexpr, Expr.sexpr, htoken ht]
  | call h hargs _ => rw [Expr.sexpr, Expr.sexpr, expr_sexpr_eq h, exprs_sexprs_eq hargs]
  | array h => rw [Expr.sexpr, Expr.sexpr, exprs_sexprs_eq h]
  | index h₁ h₂ _ => rw [Expr.sexpr, Expr.sexpr, expr_sexpr_eq h₁, expr_sexpr_eq h₂]
  | indexAssign h₁ h₂ h₃ _ =>
    rw [Expr.sexpr, Expr.sexpr, expr_sexpr_eq h₁, expr_sexpr_eq h₂, expr_sexpr_eq h₃]
termination_by sizeOf e
decreasing_by
  all_goals
    subst_vars
    simp +arith

/-- Expressions that are alike one by one look the same in an outline. -/
theorem exprs_sexprs_eq {es es' : List Expr} (h : List.Forall₂ c.trees.expr es es') :
    Expr.sexprs es = Expr.sexprs es' := by
  cases h with
  | nil => rfl
  | cons hfirst hothers =>
    rw [Expr.sexprs, Expr.sexprs, expr_sexpr_eq hfirst, exprs_sexprs_eq hothers]
termination_by sizeOf es
decreasing_by
  all_goals
    subst_vars
    simp +arith

end

/-- Expressions that may be missing look the same in an outline if they are alike. -/
theorem expr?_sexpr?_eq {e? e?' : Option Expr} (h : Option.Rel c.trees.expr e? e?') :
    Expr.sexpr? e? = Expr.sexpr? e?' := by
  cases h with
  | none => rfl
  | some h => exact congrArg (fun s => [s]) (expr_sexpr_eq h)

mutual

/-- Statements that are alike look the same in an outline. -/
theorem stmt_sexpr_eq {s s' : Stmt} (h : c.trees.stmt s s') : s.sexpr = s'.sexpr := by
  -- As for expressions. A keyword is in the head of the list, whatever its token.
  have htoken {t t' : Token} (ht : c.token t t') : t.sexpr = t'.sexpr := (c.sameText ht).sexpr_eq
  obtain ⟨hlayer⟩ := h
  cases hlayer with
  | expression he => rw [Stmt.sexpr, Stmt.sexpr, expr_sexpr_eq he]
  | print _ he => rw [Stmt.sexpr, Stmt.sexpr, expr_sexpr_eq he]
  | declare ht he => rw [Stmt.sexpr, Stmt.sexpr, htoken ht, expr?_sexpr?_eq he]
  | block hbody => rw [Stmt.sexpr, Stmt.sexpr, stmts_sexprs_eq hbody]
  | ifThen he hs => rw [Stmt.sexpr, Stmt.sexpr, expr_sexpr_eq he, stmt_sexpr_eq hs]
  | ifThenElse he h₁ h₂ =>
    rw [Stmt.sexpr, Stmt.sexpr, expr_sexpr_eq he, stmt_sexpr_eq h₁, stmt_sexpr_eq h₂]
  | loop he hs => rw [Stmt.sexpr, Stmt.sexpr, expr_sexpr_eq he, stmt_sexpr_eq hs]
  | function ht hparams hbody =>
    rw [Stmt.sexpr, Stmt.sexpr, htoken ht, hparams.map_eq htoken, stmts_sexprs_eq hbody]
  | result _ he => rw [Stmt.sexpr, Stmt.sexpr, expr?_sexpr?_eq he]
  | read kind _ he => rw [Stmt.sexpr, Stmt.sexpr, expr_sexpr_eq he]
termination_by sizeOf s
decreasing_by
  all_goals
    subst_vars
    simp +arith

/-- Statements that are alike one by one look the same in an outline. -/
theorem stmts_sexprs_eq {ss ss' : List Stmt} (h : List.Forall₂ c.trees.stmt ss ss') :
    Stmt.sexprs ss = Stmt.sexprs ss' := by
  cases h with
  | nil => rfl
  | cons hfirst hothers =>
    rw [Stmt.sexprs, Stmt.sexprs, stmt_sexpr_eq hfirst, stmts_sexprs_eq hothers]
termination_by sizeOf ss
decreasing_by
  all_goals
    subst_vars
    simp +arith

end

/-- Programs made of matching tokens have the same outline. -/
theorem outline_eq {p p' : Program} (h : List.Forall₂ c.trees.stmt p.statements p'.statements) :
    p.outline = p'.outline := by
  have htexts : p.statements.map (·.sexpr.text) = p'.statements.map (·.sexpr.text) :=
    h.map_eq fun hs => congrArg Sexpr.text (stmt_sexpr_eq hs)
  rw [Program.outline, Program.outline, htexts]

end Matching

end Treewalk
