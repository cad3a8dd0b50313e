import Treewalk.Grammar.Connective

/-!
# Normal forms of trees

The levels of the grammar say how tightly each form of expression is held together. A tree is in
*normal form* if no part of it would need parentheses that it does not have: the left side of an
operator is at the level of the operator or tighter, the right side is tighter, and so on for all
places that the grammar restricts. Parentheses that a tree does have are a node of their own
(`Expr.group`), which is as tight as a name.

For statements, a branch is no declaration, and an alternative belongs to the nearest conditional
that could take it: the branch in front of `else` must not end in a conditional without alternative.
-/

namespace Treewalk

/-! ## How tightly expressions are held together -/

/-- The tightness of the level. Assignment is looser than all levels. -/
def Level.tightness : Level → Nat
  | or => 1
  | and => 2
  | equality => 3
  | comparison => 4
  | term => 5
  | factor => 6
  | power => 7

/-- The next tighter level is tighter by one. -/
theorem Level.tightness_of_tighter? {l m : Level} (h : l.tighter? = some m) :
    m.tightness = l.tightness + 1 := by
  cases l <;> cases h <;> rfl

/-- Only the tightest level has none that is tighter. -/
theorem Level.tightness_of_tighter?_eq_none {l : Level} (h : l.tighter? = none) :
    l.tightness = 7 := by
  cases l <;> first | rfl | exact nomatch h

/-- The loosest level is the first. -/
theorem Level.tightness_pos (l : Level) : 1 ≤ l.tightness := by cases l <;> decide

/-- The tightest level is the seventh. -/
theorem Level.tightness_le (l : Level) : l.tightness ≤ 7 := by cases l <;> decide

/-- There is one level of each tightness. -/
theorem Level.eq_of_tightness_eq {l m : Level} (h : l.tightness = m.tightness) : l = m := by
  cases l <;> cases m <;> first | rfl | exact nomatch h

/-- The tightness of a connective is that of its level. -/
def Connective.tightness (c : Connective) : Nat := c.level.tightness

/-- Every connective is looser than a unary operator. -/
theorem Connective.tightness_le (c : Connective) : c.tightness ≤ 7 := c.level.tightness_le

namespace Expr

/-- The tightness of operators in front of an operand. -/
def unaryTightness : Nat := 8

/-- The tightness of calls and indexing. -/
def callTightness : Nat := 9

/-- The tightness of what needs no parentheses anywhere. -/
def primaryTightness : Nat := 10

/-- How tightly an expression is held together. -/
def tightness : Expr → Nat
  | assign .. | indexAssign .. => 0
  | logical op .. => (Connective.logical op).tightness
  | binary op .. => (Connective.binary op).tightness
  | unary .. => unaryTightness
  | call .. | index .. => callTightness
  | literal _ | name _ | group _ | array _ => primaryTightness

/-- The tightness of two joined expressions is that of the connective. -/
@[simp] theorem tightness_join (c : Connective) (left right : Expr) (span : Span) :
    (c.join left right span).tightness = c.tightness := by
  cases c <;> rfl

/-- Expressions that need no more parentheses than they have. -/
inductive Normal : Expr → Prop where
  | literal (value : Literal) : Normal (.literal value)
  | name (token : Token) : Normal (.name token)
  | group {inner : Expr} (hinner : Normal inner) : Normal (.group inner)
  | array {elements : List Expr} (helements : ∀ e ∈ elements, Normal e) : Normal (.array elements)
  | call {callee : Expr} {args : List Expr} {paren : Token} (hcallee : Normal callee)
      (htight : callTightness ≤ callee.tightness) (hargs : ∀ e ∈ args, Normal e) :
      Normal (.call callee args paren)
  | index {object position : Expr} {bracket : Token} (hobject : Normal object)
      (htight : callTightness ≤ object.tightness) (hposition : Normal position) :
      Normal (.index object position bracket)
  | unary {op : UnaryOp} {operand : Expr} {span : Span} (hoperand : Normal operand)
      (htight : unaryTightness ≤ operand.tightness) : Normal (.unary op operand span)
  | binary {op : BinaryOp} {left right : Expr} {span : Span} (hleft : Normal left)
      (hright : Normal right) (hleftTight : (Connective.binary op).tightness ≤ left.tightness)
      (hrightTight : (Connective.binary op).tightness < right.tightness) :
      Normal (.binary op left right span)
  | logical {op : LogicalOp} {left right : Expr} (hleft : Normal left) (hright : Normal right)
      (hleftTight : (Connective.logical op).tightness ≤ left.tightness)
      (hrightTight : (Connective.logical op).tightness < right.tightness) :
      Normal (.logical op left right)
  | assign {token : Token} {value : Expr} (hvalue : Normal value) : Normal (.assign token value)
  | indexAssign {object position value : Expr} {bracket : Token} (hobject : Normal object)
      (htight : callTightness ≤ object.tightness) (hposition : Normal position)
      (hvalue : Normal value) : Normal (.indexAssign object position value bracket)

/-- Joined expressions are normal if the left one is no looser than the connective and the right one
    is tighter. -/
theorem Normal.join {c : Connective} {left right : Expr} (span : Span) (hleft : left.Normal)
    (hright : right.Normal) (hleftTight : c.tightness ≤ left.tightness)
    (hrightTight : c.tightness < right.tightness) : (c.join left right span).Normal := by
  cases c with
  | binary op => exact .binary hleft hright hleftTight hrightTight
  | logical op => exact .logical hleft hright hleftTight hrightTight

/-- A normal expression as tight as some level is joined by a connective of the level. -/
theorem Normal.exists_join {e : Expr} (h : e.Normal) {l : Level} (hl : e.tightness = l.tightness) :
    ∃ c left right span, e = Connective.join c left right span ∧ c.level = l ∧ left.Normal ∧
      right.Normal ∧ l.tightness ≤ left.tightness ∧ l.tightness < right.tightness ∧
      sizeOf left < sizeOf e ∧ sizeOf right < sizeOf e := by
  have hpos := l.tightness_pos
  have hle := l.tightness_le
  cases h with
  | @binary op left right span hleft hright hleftTight hrightTight =>
    have hlevel : (Connective.binary op).level = l := Level.eq_of_tightness_eq hl
    subst hlevel
    refine ⟨.binary op, left, right, span, rfl, rfl, hleft, hright, hleftTight, hrightTight, ?_, ?_⟩
    · rw [Expr.binary.sizeOf_spec]; omega
    · rw [Expr.binary.sizeOf_spec]; omega
  | @logical op left right hleft hright hleftTight hrightTight =>
    have hlevel : (Connective.logical op).level = l := Level.eq_of_tightness_eq hl
    subst hlevel
    refine ⟨.logical op, left, right, .point 0 0, rfl, rfl, hleft, hright, hleftTight, hrightTight,
      ?_, ?_⟩
    · rw [Expr.logical.sizeOf_spec]; omega
    · rw [Expr.logical.sizeOf_spec]; omega
  -- The tightness of a level is none of the other forms.
  | assign => rw [tightness] at hl; omega
  | indexAssign => rw [tightness] at hl; omega
  | _ =>
    simp only [tightness, unaryTightness, callTightness, primaryTightness] at hl
    omega

end Expr

/-! ## Statements -/

namespace Stmt

/-- Is this a form that may stand only directly in a program, a block or a function body? -/
def isDeclaration : Stmt → Bool
  | declare .. | function .. => true
  | _ => false

/-- Does the statement end in a conditional that could still take an alternative? -/
def endsOpen : Stmt → Bool
  | ifThen .. => true
  | ifThenElse _ _ alternative => alternative.endsOpen
  | loop _ body => body.endsOpen
  | _ => false

/-- Statements that need no more parentheses and braces than they have. -/
inductive Normal : Stmt → Prop where
  | expression {value : Expr} (hvalue : value.Normal) : Normal (.expression value)
  | print {keyword : Token} {value : Expr} (hvalue : value.Normal) : Normal (.print keyword value)
  | declare {name : Token} {init : Option Expr} (hinit : ∀ e ∈ init, e.Normal) :
      Normal (.declare name init)
  | block {body : List Stmt} (hbody : ∀ s ∈ body, Normal s) : Normal (.block body)
  | ifThen {condition : Expr} {consequent : Stmt} (hcondition : condition.Normal)
      (hconsequent : Normal consequent) (hbranch : consequent.isDeclaration = false) :
      Normal (.ifThen condition consequent)
  | ifThenElse {condition : Expr} {consequent alternative : Stmt} (hcondition : condition.Normal)
      (hconsequent : Normal consequent) (hbranch : consequent.isDeclaration = false)
      (hclosed : consequent.endsOpen = false) (halternative : Normal alternative)
      (hbranch' : alternative.isDeclaration = false) :
      Normal (.ifThenElse condition consequent alternative)
  | loop {condition : Expr} {body : Stmt} (hcondition : condition.Normal) (hbody : Normal body)
      (hbranch : body.isDeclaration = false) : Normal (.loop condition body)
  | function {name : Token} {params : List Token} {body : List Stmt}
      (hbody : ∀ s ∈ body, Normal s) :
      Normal (.function name params body)
  | result {keyword : Token} {value : Option Expr} (hvalue : ∀ e ∈ value, e.Normal) :
      Normal (.result keyword value)
  | read {kind : ReadKind} {keyword : Token} {target : Expr} (htarget : target.Normal) :
      Normal (.read kind keyword target)

end Stmt

/-- Programs of statements in normal form. -/
def Program.Normal (p : Program) : Prop := ∀ s ∈ p.statements, s.Normal

end Treewalk
