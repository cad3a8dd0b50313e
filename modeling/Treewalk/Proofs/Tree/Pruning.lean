import Treewalk.Proofs.Tree.Layer

/-!
# Trees without what stands behind a return

A tree is pruned by leaving out, in each of its lists of statements, whatever stands behind a
statement that leaves the function around it (`Stmt.prunedAll_append`). Trees that count as the same
if one of them is the other one, pruned or not, are a tree relation (`TreeRelation.pruned`).
-/

namespace Treewalk

namespace Stmt

/-- Does the statement leave the function around it? -/
def isResult : Stmt → Bool
  | .result _ _ => true
  | _ => false

mutual

/-- The statement with all its lists of statements pruned. -/
def pruned : Stmt → Stmt
  | .block body => .block (prunedAll body)
  | .ifThen condition consequent => .ifThen condition consequent.pruned
  | .ifThenElse condition consequent alternative =>
    .ifThenElse condition consequent.pruned alternative.pruned
  | .loop condition body => .loop condition body.pruned
  | .function token params body => .function token params (prunedAll body)
  | .expression value => .expression value
  | .print keyword value => .print keyword value
  | .declare token init => .declare token init
  | .result keyword value => .result keyword value
  | .read kind keyword target => .read kind keyword target

/-- The statements up to the first one that leaves the function around them, pruned. -/
def prunedAll : List Stmt → List Stmt
  | [] => []
  | s :: rest => s.pruned :: if s.isResult then [] else prunedAll rest

end

/-- Where no statement leaves the function around it, nothing is left out. -/
theorem prunedAll_of_forall {body : List Stmt} (h : ∀ s ∈ body, s.isResult = false) :
    prunedAll body = body.map pruned := by
  induction body with
  | nil => rfl
  | cons s body ih =>
    obtain ⟨hs, hbody⟩ := List.forall_mem_cons.1 h
    rw [prunedAll, hs, if_neg Bool.false_ne_true, ih hbody, List.map_cons]

/-- Behind the first statement that leaves the function around it, everything is left out. -/
theorem prunedAll_append {front : List Stmt} (h : ∀ s ∈ front, s.isResult = false) (t : Token)
    (e : Option Expr)
    (rest : List Stmt) :
    prunedAll (front ++ .result t e :: rest) = front.map pruned ++ [.result t e] := by
  induction front with
  | nil => rfl
  | cons s front ih =>
    obtain ⟨hs, hfront⟩ := List.forall_mem_cons.1 h
    rw [List.cons_append, prunedAll, hs, if_neg Bool.false_ne_true, ih hfront, List.map_cons,
      List.cons_append]

end Stmt

/-- The program without what stands behind a return. -/
def Program.pruned (p : Program) : Program := ⟨Stmt.prunedAll p.statements⟩

namespace TreeRelation

/-- A tree counts as the same as itself, pruned or not. -/
def pruned : TreeRelation where
  expr := Eq
  stmt s s' := s = s' ∨ s.pruned = s'
  body ss ss' := ss = ss' ∨ Stmt.prunedAll ss = ss'
  token := Eq
  span := Eq
  expr_layer := same.expr_layer
  stmt_layer {s s'} h := by
    have hrel (e : Option Expr) : Option.Rel Eq e e := by cases e <;> constructor; rfl
    obtain rfl | rfl := h
    · cases s <;> constructor <;>
        first | rfl | exact List.forall₂_refl _ | exact hrel _ | exact .inl rfl
    · cases s <;> constructor <;>
        first | rfl | exact List.forall₂_refl _ | exact hrel _ | exact .inr rfl
  body_layer {ss ss'} h := by
    obtain rfl | rfl := h
    · cases ss with
      | nil => exact .nil
      | cons s ss => exact .cons (.inl rfl) (.inl rfl)
    · cases ss with
      | nil => exact .nil
      | cons s ss =>
        cases s with
        | result t e => exact .result (.inl rfl) ss []
        | _ => exact .cons (.inr rfl) (.inr rfl)
  lexeme_eq h := congrArg Token.lexeme h
  span_of_token h := congrArg Token.span h

end TreeRelation

end Treewalk
