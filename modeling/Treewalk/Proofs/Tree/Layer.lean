import Mathlib.Data.List.Forall2
import Treewalk.Tree

/-!
# Trees of the same shape

Two trees may differ and still do the same: their tokens may stand elsewhere in a source, for
example. A `TreeRelation` says which trees count as the same. It has to look through one layer of
the trees: trees that it relates are of the same form, and it relates their parts (`Expr.Layer`,
`Stmt.Layer`). Lists of statements that it relates start alike (`Stmt.BodyLayer`). Tokens may differ
only in what no program can see, and the places of related tokens are related.

Equality is a tree relation (`TreeRelation.same`).
-/

namespace Treewalk

/-- Two expressions of the same form, with related parts. -/
inductive Expr.Layer (expr : Expr → Expr → Prop) (token : Token → Token → Prop)
    (span : Span → Span → Prop) : Expr → Expr → Prop where
  | literal (value : Literal) : Layer expr token span (.literal value) (.literal value)
  | group {e e' : Expr} (h : expr e e') : Layer expr token span (.group e) (.group e')
  | unary (op : UnaryOp) {e e' : Expr} {s s' : Span} (h : expr e e') (hspan : span s s') :
      Layer expr token span (.unary op e s) (.unary op e' s')
  | binary (op : BinaryOp) {e₁ e₁' e₂ e₂' : Expr} {s s' : Span} (h₁ : expr e₁ e₁')
      (h₂ : expr e₂ e₂')
      (hspan : span s s') : Layer expr token span (.binary op e₁ e₂ s) (.binary op e₁' e₂' s')
  | logical (op : LogicalOp) {e₁ e₁' e₂ e₂' : Expr} (h₁ : expr e₁ e₁') (h₂ : expr e₂ e₂') :
      Layer expr token span (.logical op e₁ e₂) (.logical op e₁' e₂')
  | assign {t t' : Token} {e e' : Expr} (ht : token t t') (h : expr e e') :
      Layer expr token span (.assign t e) (.assign t' e')
  | name {t t' : Token} (ht : token t t') : Layer expr token span (.name t) (.name t')
  | call {e e' : Expr} {args args' : List Expr} {t t' : Token} (h : expr e e')
      (hargs : List.Forall₂ expr args args') (ht : token t t') :
      Layer expr token span (.call e args t) (.call e' args' t')
  | array {elements elements' : List Expr} (h : List.Forall₂ expr elements elements') :
      Layer expr token span (.array elements) (.array elements')
  | index {e₁ e₁' e₂ e₂' : Expr} {t t' : Token} (h₁ : expr e₁ e₁') (h₂ : expr e₂ e₂')
      (ht : token t t') : Layer expr token span (.index e₁ e₂ t) (.index e₁' e₂' t')
  | indexAssign {e₁ e₁' e₂ e₂' e₃ e₃' : Expr} {t t' : Token} (h₁ : expr e₁ e₁') (h₂ : expr e₂ e₂')
      (h₃ : expr e₃ e₃') (ht : token t t') :
      Layer expr token span (.indexAssign e₁ e₂ e₃ t) (.indexAssign e₁' e₂' e₃' t')

/-- Two statements of the same form, with related parts. -/
inductive Stmt.Layer (expr : Expr → Expr → Prop) (stmt : Stmt → Stmt → Prop)
    (body : List Stmt → List Stmt → Prop)
    (token : Token → Token → Prop) : Stmt → Stmt → Prop where
  | expression {e e' : Expr} (h : expr e e') :
      Layer expr stmt body token (.expression e) (.expression e')
  | print {t t' : Token} {e e' : Expr} (ht : token t t') (h : expr e e') :
      Layer expr stmt body token (.print t e) (.print t' e')
  | declare {t t' : Token} {e e' : Option Expr} (ht : token t t') (h : Option.Rel expr e e') :
      Layer expr stmt body token (.declare t e) (.declare t' e')
  | block {ss ss' : List Stmt} (h : body ss ss') :
      Layer expr stmt body token (.block ss) (.block ss')
  | ifThen {e e' : Expr} {s s' : Stmt} (he : expr e e') (hs : stmt s s') :
      Layer expr stmt body token (.ifThen e s) (.ifThen e' s')
  | ifThenElse {e e' : Expr} {s₁ s₁' s₂ s₂' : Stmt} (he : expr e e') (h₁ : stmt s₁ s₁')
      (h₂ : stmt s₂ s₂') : Layer expr stmt body token (.ifThenElse e s₁ s₂) (.ifThenElse e' s₁' s₂')
  | loop {e e' : Expr} {s s' : Stmt} (he : expr e e') (hs : stmt s s') :
      Layer expr stmt body token (.loop e s) (.loop e' s')
  | function {t t' : Token} {params params' : List Token} {ss ss' : List Stmt} (ht : token t t')
      (hparams : List.Forall₂ token params params') (hbody : body ss ss') :
      Layer expr stmt body token (.function t params ss) (.function t' params' ss')
  | result {t t' : Token} {e e' : Option Expr} (ht : token t t') (h : Option.Rel expr e e') :
      Layer expr stmt body token (.result t e) (.result t' e')
  | read (kind : ReadKind) {t t' : Token} {e e' : Expr} (ht : token t t') (h : expr e e') :
      Layer expr stmt body token (.read kind t e) (.read kind t' e')

/-- Two lists of statements that start with related ones, and go on with lists that count as the
    same. Behind a statement that leaves them, anything may stand. -/
inductive Stmt.BodyLayer (stmt : Stmt → Stmt → Prop) (body : List Stmt → List Stmt → Prop) :
    List Stmt → List Stmt → Prop where
  | nil : BodyLayer stmt body [] []
  | cons {s s' : Stmt} {ss ss' : List Stmt} (h : stmt s s') (hothers : body ss ss') :
      BodyLayer stmt body (s :: ss) (s' :: ss')
  | result {t t' : Token} {e e' : Option Expr} (h : stmt (.result t e) (.result t' e'))
      (ss ss' : List Stmt) :
      BodyLayer stmt body (.result t e :: ss) (.result t' e' :: ss')

/-- Which trees, tokens and places count as the same. -/
structure TreeRelation where
  expr : Expr → Expr → Prop
  stmt : Stmt → Stmt → Prop
  body : List Stmt → List Stmt → Prop
  token : Token → Token → Prop
  span : Span → Span → Prop
  expr_layer {e e' : Expr} (h : expr e e') : Expr.Layer expr token span e e'
  stmt_layer {s s' : Stmt} (h : stmt s s') : Stmt.Layer expr stmt body token s s'
  body_layer {ss ss' : List Stmt} (h : body ss ss') : Stmt.BodyLayer stmt body ss ss'
  lexeme_eq {t t' : Token} (h : token t t') : t.lexeme = t'.lexeme
  span_of_token {t t' : Token} (h : token t t') : span t.span t'.span

namespace TreeRelation

/-- Only equal trees count as the same. -/
def same : TreeRelation where
  expr := Eq
  stmt := Eq
  body := Eq
  token := Eq
  span := Eq
  expr_layer {e e'} h := by
    subst h
    cases e <;> constructor <;> first | rfl | exact List.forall₂_refl _
  stmt_layer {s s'} h := by
    subst h
    have hrel (e : Option Expr) : Option.Rel Eq e e := by cases e <;> constructor; rfl
    cases s <;> constructor <;> first | rfl | exact List.forall₂_refl _ | exact hrel _
  body_layer {ss ss'} h := by
    subst h
    cases ss with
    | nil => exact .nil
    | cons s ss => exact .cons rfl rfl
  lexeme_eq h := congrArg Token.lexeme h
  span_of_token h := congrArg Token.span h

end TreeRelation

end Treewalk
