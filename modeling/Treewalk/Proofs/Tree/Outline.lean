import Treewalk.Proofs.Token.Genuine
import Treewalk.Proofs.Tree.Numbers
import Treewalk.Proofs.Tree.SexprText
import Treewalk.Proofs.Tree.Spelling
import Treewalk.Tree.Dump.Read

/-!
# Outlines show everything but places

`Program.unplaced` is a program with all places taken away. The outline of a program shows nothing
of places (`Stmt.sexpr_unplaced`) and all of the rest: `Stmt.ofSexpr?` reads the program apart from
places back, and the text of an outline says which S-expressions it is the text of (`Stmt.Shown`).
So programs that have the same outline differ only in places (`Program.outline_eq_iff`).

That holds for trees of genuine tokens. In a tree that is put together by hand a name may be empty,
or hold parentheses.
-/

namespace Treewalk

/-! ## Trees without places -/

/-- The place that stands for all places. -/
def Span.nowhere : Span := .point 0 0

/-- The token apart from where it is. -/
def Token.unplaced (t : Token) : Token := { t with line := 0, span := .nowhere }

mutual

/-- The expression apart from where its tokens are. -/
def Expr.unplaced : Expr → Expr
  | .literal value => .literal value
  | .group inner => .group inner.unplaced
  | .unary op operand _ => .unary op operand.unplaced .nowhere
  | .binary op left right _ => .binary op left.unplaced right.unplaced .nowhere
  | .logical op left right => .logical op left.unplaced right.unplaced
  | .assign token value => .assign token.unplaced value.unplaced
  | .name token => .name token.unplaced
  | .call callee args paren => .call callee.unplaced (Expr.unplacedOf args) paren.unplaced
  | .array elements => .array (Expr.unplacedOf elements)
  | .index object position bracket => .index object.unplaced position.unplaced bracket.unplaced
  | .indexAssign object position value bracket =>
    .indexAssign object.unplaced position.unplaced value.unplaced bracket.unplaced

/-- Each of some expressions apart from where its tokens are. -/
def Expr.unplacedOf : List Expr → List Expr
  | [] => []
  | e :: rest => e.unplaced :: Expr.unplacedOf rest

end

mutual

/-- The statement apart from where its tokens are. -/
def Stmt.unplaced : Stmt → Stmt
  | .expression value => .expression value.unplaced
  | .print keyword value => .print keyword.unplaced value.unplaced
  | .declare name init => .declare name.unplaced (init.map Expr.unplaced)
  | .block body => .block (Stmt.unplacedOf body)
  | .ifThen condition consequent => .ifThen condition.unplaced consequent.unplaced
  | .ifThenElse condition consequent alternative =>
    .ifThenElse condition.unplaced consequent.unplaced alternative.unplaced
  | .loop condition body => .loop condition.unplaced body.unplaced
  | .function name params body =>
    .function name.unplaced (params.map Token.unplaced) (Stmt.unplacedOf body)
  | .result keyword value => .result keyword.unplaced (value.map Expr.unplaced)
  | .read kind keyword target => .read kind keyword.unplaced target.unplaced

/-- Each of some statements apart from where its tokens are. -/
def Stmt.unplacedOf : List Stmt → List Stmt
  | [] => []
  | s :: rest => s.unplaced :: Stmt.unplacedOf rest

end

/-- The program apart from where its tokens are. -/
def Program.unplaced (p : Program) : Program := ⟨Stmt.unplacedOf p.statements⟩

mutual

/-- The outline shows nothing of places. -/
theorem Expr.sexpr_unplaced (e : Expr) : e.unplaced.sexpr = e.sexpr := by
  -- Taking the places away changes no word and no literal, and nothing else is shown.
  cases e with
  | literal value => rfl
  | group inner => rw [unplaced, sexpr, sexpr, sexpr_unplaced inner]
  | unary op operand span => rw [unplaced, sexpr, sexpr, sexpr_unplaced operand]
  | binary op left right span =>
    rw [unplaced, sexpr, sexpr, sexpr_unplaced left, sexpr_unplaced right]
  | logical op left right => rw [unplaced, sexpr, sexpr, sexpr_unplaced left, sexpr_unplaced right]
  | assign token value => rw [unplaced, sexpr, sexpr, sexpr_unplaced value]; rfl
  | name token => rfl
  | call callee args paren =>
    rw [unplaced, sexpr, sexpr, sexpr_unplaced callee, sexprs_unplacedOf args]
  | array elements => rw [unplaced, sexpr, sexpr, sexprs_unplacedOf elements]
  | index object position bracket =>
    rw [unplaced, sexpr, sexpr, sexpr_unplaced object, sexpr_unplaced position]
  | indexAssign object position value bracket =>
    rw [unplaced, sexpr, sexpr, sexpr_unplaced object, sexpr_unplaced position,
      sexpr_unplaced value]
termination_by structural e

/-- Expressions look the same in an outline without their places. -/
theorem Expr.sexprs_unplacedOf (es : List Expr) :
    Expr.sexprs (Expr.unplacedOf es) = Expr.sexprs es := by
  cases es with
  | nil => rfl
  | cons e rest => rw [unplacedOf, sexprs, sexprs, sexpr_unplaced e, sexprs_unplacedOf rest]
termination_by structural es

end

/-- An expression that may be missing looks the same in an outline without its places. -/
theorem Expr.sexpr?_map_unplaced (e? : Option Expr) :
    Expr.sexpr? (e?.map Expr.unplaced) = Expr.sexpr? e? := by
  cases e? with
  | none => rfl
  | some e => simp [sexpr?, sexpr_unplaced]

mutual

/-- A statement looks the same in an outline without its places. -/
theorem Stmt.sexpr_unplaced (s : Stmt) : s.unplaced.sexpr = s.sexpr := by
  -- The token of a keyword is not shown at all, and the other tokens by their lexemes only.
  cases s with
  | expression value => rw [unplaced, sexpr, sexpr, value.sexpr_unplaced]
  | print keyword value => rw [unplaced, sexpr, sexpr, value.sexpr_unplaced]
  | declare name init => rw [unplaced, sexpr, sexpr, Expr.sexpr?_map_unplaced]; rfl
  | block body => rw [unplaced, sexpr, sexpr, sexprs_unplacedOf body]
  | ifThen condition consequent =>
    rw [unplaced, sexpr, sexpr, condition.sexpr_unplaced, sexpr_unplaced consequent]
  | ifThenElse condition consequent alternative =>
    rw [unplaced, sexpr, sexpr, condition.sexpr_unplaced, sexpr_unplaced consequent,
      sexpr_unplaced alternative]
  | loop condition body =>
    rw [unplaced, sexpr, sexpr, condition.sexpr_unplaced, sexpr_unplaced body]
  | function name params body =>
    rw [unplaced, sexpr, sexpr, sexprs_unplacedOf body, List.map_map]; rfl
  | result keyword value => rw [unplaced, sexpr, sexpr, Expr.sexpr?_map_unplaced]
  | read kind keyword target => rw [unplaced, sexpr, sexpr, target.sexpr_unplaced]
termination_by structural s

/-- Statements look the same in an outline without their places. -/
theorem Stmt.sexprs_unplacedOf (body : List Stmt) :
    Stmt.sexprs (Stmt.unplacedOf body) = Stmt.sexprs body := by
  cases body with
  | nil => rfl
  | cons s rest => rw [unplacedOf, sexprs, sexprs, sexpr_unplaced s, sexprs_unplacedOf rest]
termination_by structural body

end

/-! ## Reading outlines -/

/-- The token of a kind that has only one text. -/
def Kind.unplaced (kind : Kind) : Token := .plain kind kind.text .nowhere

/-- The token of a name. -/
def Token.named (name : String) : Token := .plain .identifier name .nowhere

/-- Reads the name that a leaf is. -/
def Token.ofSexpr? : Sexpr → Option Token
  | .leaf name => some (.named name)
  | .list _ => none

/-- Reads a leaf: a string in quotes, a word, or else a number. -/
def Expr.ofLeaf? (text : String) : Option Expr :=
  match text.toList with
  | [] => none
  | c :: rest =>
    if c = '"' then some (.literal (.string (String.ofList rest.dropLast)))
    else if Piece.startsWord c then
      match Kind.ofWord text with
      | .nullWord => some (.literal .null)
      | .trueWord => some (.literal (.bool true))
      | .falseWord => some (.literal (.bool false))
      | _ => some (.name (.named text))
    else (Number.ofNumeral? text.toList).map fun value => .literal (.number value)

/-- The expression whose outline has these parts behind this head. -/
def Expr.ofParts? (head : String) (parts : List Expr) : Option Expr :=
  match head, parts with
  | "group", [inner] => some (.group inner)
  | "call", callee :: args => some (.call callee args (Kind.unplaced .rParen))
  | "array", elements => some (.array elements)
  | "index", [object, position] => some (.index object position (Kind.unplaced .rBracket))
  | "=", [.name token, value] => some (.assign token value)
  | "=", [.index object position bracket, value] =>
    some (.indexAssign object position value bracket)
  | op, [operand] => (UnaryOp.all.find? (·.text == op)).map fun op => .unary op operand .nowhere
  | op, [left, right] =>
    match BinaryOp.all.find? (·.text == op) with
    | some op => some (.binary op left right .nowhere)
    | none => (LogicalOp.all.find? (·.text == op)).map fun op => .logical op left right
  | _, _ => none

mutual

/-- Reads an expression. -/
def Expr.ofSexpr? : Sexpr → Option Expr
  | .leaf text => Expr.ofLeaf? text
  | .list (.leaf head :: parts) => (Expr.ofSexprs? parts).bind (Expr.ofParts? head)
  | .list _ => none

/-- Reads each of some expressions. -/
def Expr.ofSexprs? : List Sexpr → Option (List Expr)
  | [] => some []
  | s :: rest => do return (← Expr.ofSexpr? s) :: (← Expr.ofSexprs? rest)

end

/-- The statement whose outline has these expressions for its parts behind this head. -/
def Stmt.ofParts? (head : String) (parts : List Expr) : Option Stmt :=
  match head, parts with
  | "expr", [value] => some (.expression value)
  | "print", [value] => some (.print (Kind.unplaced .printWord) value)
  | "variable", [.name token] => some (.declare token none)
  | "variable", [.name token, init] => some (.declare token (some init))
  | "return", [] => some (.result (Kind.unplaced .returnWord) none)
  | "return", [value] => some (.result (Kind.unplaced .returnWord) (some value))
  | word, [target] =>
    (ReadKind.all.find? (·.text == word)).map fun kind =>
      .read kind (Kind.unplaced kind.kind) target
  | _, _ => none

mutual

/-- Reads a statement. -/
def Stmt.ofSexpr? : Sexpr → Option Stmt
  | .list (.leaf "block" :: body) => do return .block (← Stmt.ofSexprs? body)
  | .list [.leaf "if", condition, consequent] => do
    return .ifThen (← Expr.ofSexpr? condition) (← Stmt.ofSexpr? consequent)
  | .list [.leaf "if", condition, consequent, alternative] => do
    return .ifThenElse (← Expr.ofSexpr? condition) (← Stmt.ofSexpr? consequent)
      (← Stmt.ofSexpr? alternative)
  | .list [.leaf "while", condition, body] => do
    return .loop (← Expr.ofSexpr? condition) (← Stmt.ofSexpr? body)
  | .list (.leaf "function" :: .leaf name :: .list params :: body) => do
    return .function (.named name) (← params.mapM Token.ofSexpr?) (← Stmt.ofSexprs? body)
  | .list (.leaf head :: parts) => (Expr.ofSexprs? parts).bind (Stmt.ofParts? head)
  | _ => none

/-- Reads each of some statements. -/
def Stmt.ofSexprs? : List Sexpr → Option (List Stmt)
  | [] => some []
  | s :: rest => do return (← Stmt.ofSexpr? s) :: (← Stmt.ofSexprs? rest)

end

/-! ## Trees of genuine tokens -/

/-- Is there a genuine token for each of the slots? -/
def TokenSlot.Genuine (slots : List TokenSlot) : Prop :=
  ∀ slot ∈ slots, ∃ t : Token, t.Genuine ∧ slot.Admits t

namespace TokenSlot

/-- Where there are no slots, all are genuine. -/
@[simp] theorem genuine_nil : Genuine [] := List.forall_mem_nil _

/-- The first slot has to be genuine, and so do the others. -/
@[simp] theorem genuine_cons {slot : TokenSlot} {slots : List TokenSlot} :
    Genuine (slot :: slots) ↔ (∃ t : Token, t.Genuine ∧ slot.Admits t) ∧ Genuine slots :=
  List.forall_mem_cons

/-- The slots of two lists are genuine if those of both are. -/
@[simp] theorem genuine_append {a b : List TokenSlot} : Genuine (a ++ b) ↔ Genuine a ∧ Genuine b :=
  List.forall_mem_append

end TokenSlot

/-- Genuine tokens that spell a tree are there for its slots. -/
theorem Spells.genuine {slots : List TokenSlot} {tokens : List Token} (h : Spells slots tokens)
    (htokens : ∀ t ∈ tokens, t.Genuine) : TokenSlot.Genuine slots := by
  induction h with
  | nil => exact TokenSlot.genuine_nil
  | cons hfirst _ ih =>
    obtain ⟨ht, hrest⟩ := List.forall_mem_cons.1 htokens
    exact TokenSlot.genuine_cons.2 ⟨⟨_, ht, hfirst⟩, ih hrest⟩

/-- All that is kept of a genuine token with only one text is where it is. -/
theorem Token.unplaced_eq_of_kept {kind : Kind} {token : Token} (hkind : kind.hasOneText = true)
    (h : ∃ t : Token, t.Genuine ∧ (TokenSlot.kept (.fixed kind) token).Admits t) :
    token.unplaced = kind.unplaced := by
  obtain ⟨t, ht, hadmits⟩ := h
  obtain ⟨rfl, hsymbol⟩ := TokenSlot.admits_kept.1 hadmits
  obtain rfl := kind_of_symbol hsymbol
  obtain ⟨hlexeme, hliteral⟩ := ht.fixed hkind
  rw [unplaced, Kind.unplaced, plain, hlexeme, hliteral]
  rfl

/-- A genuine name is known by its text. -/
theorem Token.unplaced_eq_of_ofName {token : Token}
    (h : ∃ t : Token, t.Genuine ∧ (TokenSlot.ofName token).Admits t) :
    token.unplaced = .named token.lexeme ∧ Piece.IsName token.lexeme.toList ∧
      Kind.ofWord token.lexeme = .identifier := by
  obtain ⟨t, ht, hadmits⟩ := h
  obtain ⟨rfl, hkind⟩ := TokenSlot.admits_ofName.1 hadmits
  obtain ⟨hname, hword, hliteral⟩ := ht.name hkind
  refine ⟨?_, hname, hword⟩
  rw [unplaced, named, plain, hkind, hliteral]
  rfl

/-! ## Leaves -/

/-- A leaf with a name that is no keyword is read as the name. -/
theorem Expr.ofLeaf?_name {name : String} (hname : Piece.IsName name.toList)
    (hword : Kind.ofWord name = .identifier) : Expr.ofLeaf? name = some (.name (.named name)) := by
  obtain ⟨c, rest, htext, hfirst, -⟩ := hname
  have hquote : c ≠ '"' := by
    rintro rfl
    exact nomatch hfirst
  simp only [ofLeaf?, htext, if_neg hquote, if_pos hfirst, hword]

/-- A leaf with the text of a literal is read as the literal, if its number is finite. -/
theorem Expr.ofLeaf?_text {value : Literal} (hfinite : AllFinite value.numbers) :
    Expr.ofLeaf? value.text = some (.literal value) := by
  cases value with
  | null => rfl
  | bool value => cases value <;> rfl
  | number x =>
    have hx : Number.IsFinite x := allFinite_singleton.1 hfinite
    -- A number starts with a digit or a minus, so it is taken for neither a string nor a name.
    obtain ⟨c, rest, htext, hc⟩ := Number.exists_cons_text hx
    have hquote : c ≠ '"' := by
      rintro rfl
      obtain hc | hc := hc <;> exact nomatch hc
    have hword : Piece.startsWord c = false := by
      obtain rfl | hdigit := hc
      · rfl
      · refine Bool.eq_false_iff.2 fun hword => ?_
        exact nomatch (Piece.front_of_isDigit hdigit).symm.trans (Piece.front_of_startsWord hword)
    have hread := Number.ofNumeral?_text hx
    rw [htext] at hread
    simp [ofLeaf?, Literal.text, htext, hquote, hword, hread]
  | string text => simp [ofLeaf?, Literal.text]

/-- A name stands as a whole wherever it is. -/
theorem Piece.IsName.stands {text : List Char} (h : Piece.IsName text) : Sexpr.Stands text := by
  obtain ⟨c, rest, rfl, hfirst, hothers⟩ := h
  refine .bare (List.cons_ne_nil c rest) (List.forall_mem_cons.2 ⟨?_, fun d hd => ?_⟩)
  · exact Sexpr.isMark_eq_false hfirst rfl
  · exact Sexpr.isMark_eq_false (hothers d hd) rfl

/-- The text of a literal can be read off the outline. -/
theorem Literal.legible {value : Literal} (hgenuine : TokenSlot.Genuine [.open value.symbol])
    (hfinite : AllFinite value.numbers) : (Sexpr.leaf value.text).Legible := by
  cases value with
  | null => exact .leaf (.of_isBare (by decide))
  | bool value => cases value <;> exact .leaf (.of_isBare (by decide))
  | number x =>
    have hx : Number.IsFinite x := allFinite_singleton.1 hfinite
    obtain ⟨c, rest, htext, -⟩ := Number.exists_cons_text hx
    refine .leaf (.bare (htext ▸ List.cons_ne_nil c rest) fun d hd => ?_)
    exact Sexpr.isMark_eq_false (Number.isNumeric_of_mem_text hx d hd) rfl
  | string text =>
    -- The text of a string comes from a genuine token, and so it has no quote that would end the
    -- leaf.
    obtain ⟨⟨t, ht, hadmits⟩, -⟩ := TokenSlot.genuine_cons.1 hgenuine
    obtain ⟨-, hliteral⟩ := Token.symbol_eq_value_iff.1 (TokenSlot.admits_open.1 hadmits)
    have hquoted : (Literal.string text).text.toList = '"' ::
      (text.toList ++ ['"']) := by simp [Literal.text]
    refine .leaf ?_
    rw [hquoted]
    exact .quoted (ht.string text hliteral)

/-- The name of a genuine token can be read off the outline. -/
theorem Token.legible_sexpr {token : Token}
    (h : ∃ t : Token, t.Genuine ∧ (TokenSlot.ofName token).Admits t) : token.sexpr.Legible := by
  obtain ⟨-, hname, -⟩ := unplaced_eq_of_ofName h
  exact .leaf hname.stands

/-! ## Expressions -/

/-- An operator with one operand is read as a unary expression. -/
theorem Expr.ofParts?_unary (op : UnaryOp) (operand : Expr) :
    Expr.ofParts? op.text [operand] = some (.unary op operand .nowhere) := by
  cases op <;> rfl

/-- A binary operator with two operands is read as one. -/
theorem Expr.ofParts?_binary (op : BinaryOp) (left right : Expr) :
    Expr.ofParts? op.text [left, right] = some (.binary op left right .nowhere) := by
  cases op <;> rfl

/-- A logical operator with two operands is read as one. -/
theorem Expr.ofParts?_logical (op : LogicalOp) (left right : Expr) :
    Expr.ofParts? op.text [left, right] = some (.logical op left right) := by
  cases op <;> rfl

/-- Expressions with commas between them are genuine one by one. -/
theorem Expr.genuine_of_slotsBehind {es : List Expr} (h : TokenSlot.Genuine (Expr.slotsBehind es)) :
    ∀ e ∈ es, TokenSlot.Genuine e.slots := by
  induction es with
  | nil => exact List.forall_mem_nil _
  | cons e rest ih =>
    rw [slotsBehind, TokenSlot.genuine_cons, TokenSlot.genuine_append] at h
    exact List.forall_mem_cons.2 ⟨h.2.1, ih h.2.2⟩

/-- If the slots of arguments are genuine, those of each of them are. -/
theorem Expr.genuine_of_slotsOf {es : List Expr} (h : TokenSlot.Genuine (Expr.slotsOf es)) :
    ∀ e ∈ es, TokenSlot.Genuine e.slots := by
  cases es with
  | nil => exact List.forall_mem_nil _
  | cons e rest =>
    rw [slotsOf, TokenSlot.genuine_append] at h
    exact List.forall_mem_cons.2 ⟨h.1, genuine_of_slotsBehind h.2⟩

/-- The outline of an expression can be told from a text, and the expression apart from places from
    it. -/
structure Expr.Shown (e : Expr) : Prop where
  legible : e.sexpr.Legible
  read : Expr.ofSexpr? e.sexpr = some e.unplaced

/-- The same for some expressions. -/
structure Expr.AllShown (es : List Expr) : Prop where
  legible : ∀ s ∈ Expr.sexprs es, s.Legible
  read : Expr.ofSexprs? (Expr.sexprs es) = some (Expr.unplacedOf es)

mutual

/-- Expressions of genuine tokens, without infinities, are shown. -/
theorem Expr.shown (e : Expr) (hgenuine : TokenSlot.Genuine e.slots)
    (hfinite : AllFinite e.numbers) : e.Shown := by
  -- In each case: the parts are shown, the head is a word or an operator, so the list of them is
  -- legible; and the head with the parts that are read back gives the expression.
  cases e with
  | literal value =>
    exact ⟨value.legible hgenuine hfinite, ofLeaf?_text hfinite⟩
  | group inner =>
    simp only [slots, TokenSlot.genuine_cons, TokenSlot.genuine_append] at hgenuine
    obtain ⟨hlegible, hread⟩ := shown inner hgenuine.2.1 hfinite
    constructor
    · exact .cons_leaf (by decide) (by simp [hlegible])
    · simp [sexpr, ofSexpr?, ofSexprs?, hread, ofParts?, unplaced]
  | unary op operand span =>
    simp only [slots, TokenSlot.genuine_cons] at hgenuine
    obtain ⟨hlegible, hread⟩ := shown operand hgenuine.2 hfinite
    constructor
    · exact .cons_leaf (by cases op <;> decide) (by simp [hlegible])
    · simp [sexpr, ofSexpr?, ofSexprs?, hread, ofParts?_unary, unplaced]
  | binary op left right span =>
    simp only [slots, TokenSlot.genuine_cons, TokenSlot.genuine_append] at hgenuine
    rw [numbers, allFinite_append] at hfinite
    have hleft := shown left hgenuine.1 hfinite.1
    have hright := shown right hgenuine.2.2 hfinite.2
    constructor
    · exact .cons_leaf (by cases op <;> decide) (by simp [hleft.legible, hright.legible])
    · simp [sexpr, ofSexpr?, ofSexprs?, hleft.read, hright.read, ofParts?_binary, unplaced]
  | logical op left right =>
    simp only [slots, TokenSlot.genuine_cons, TokenSlot.genuine_append] at hgenuine
    rw [numbers, allFinite_append] at hfinite
    have hleft := shown left hgenuine.1 hfinite.1
    have hright := shown right hgenuine.2.2 hfinite.2
    constructor
    · exact .cons_leaf (by cases op <;> decide) (by simp [hleft.legible, hright.legible])
    · simp [sexpr, ofSexpr?, ofSexprs?, hleft.read, hright.read, ofParts?_logical, unplaced]
  | assign token value =>
    simp only [slots, TokenSlot.genuine_cons] at hgenuine
    rw [numbers, allFinite_append] at hfinite
    obtain ⟨htoken, hname, hword⟩ := Token.unplaced_eq_of_ofName hgenuine.1
    have hvalue := shown value hgenuine.2.2 hfinite.2
    constructor
    · exact .cons_leaf (by decide) (by simp [Token.legible_sexpr hgenuine.1, hvalue.legible])
    · simp [sexpr, Token.sexpr, ofSexpr?, ofSexprs?, ofLeaf?_name hname hword, hvalue.read,
        ofParts?, unplaced, htoken]
  | name token =>
    -- A leaf is read as a name because it begins like a word and is none of the reserved ones.
    simp only [slots, TokenSlot.genuine_cons] at hgenuine
    obtain ⟨htoken, hname, hword⟩ := Token.unplaced_eq_of_ofName hgenuine.1
    constructor
    · exact Token.legible_sexpr hgenuine.1
    · rw [sexpr, Token.sexpr, ofSexpr?, ofLeaf?_name hname hword, unplaced, htoken]
  | call callee args paren =>
    simp only [slots, TokenSlot.genuine_cons, TokenSlot.genuine_append] at hgenuine
    rw [numbers, allFinite_append, allFinite_append] at hfinite
    have hcallee := shown callee hgenuine.1 hfinite.1.1
    have hargs := allShown args (genuine_of_slotsOf hgenuine.2.2.1) hfinite.1.2
    have hparen := Token.unplaced_eq_of_kept rfl hgenuine.2.2.2.1
    constructor
    · exact .cons_leaf (by decide) (List.forall_mem_cons.2 ⟨hcallee.legible, hargs.legible⟩)
    · simp [sexpr, ofSexpr?, ofSexprs?, hcallee.read, hargs.read, ofParts?, unplaced, hparen]
  | array elements =>
    simp only [slots, TokenSlot.genuine_cons, TokenSlot.genuine_append] at hgenuine
    have helements := allShown elements (genuine_of_slotsOf hgenuine.2.1) hfinite
    constructor
    · exact .cons_leaf (by decide) helements.legible
    · simp [sexpr, ofSexpr?, helements.read, ofParts?, unplaced]
  | index object position bracket =>
    simp only [slots, TokenSlot.genuine_cons, TokenSlot.genuine_append] at hgenuine
    rw [numbers, allFinite_append, allFinite_append] at hfinite
    have hobject := shown object hgenuine.1 hfinite.1.1
    have hposition := shown position hgenuine.2.2.1 hfinite.1.2
    have hbracket := Token.unplaced_eq_of_kept rfl hgenuine.2.2.2.1
    constructor
    · exact .cons_leaf (by decide) (by simp [hobject.legible, hposition.legible])
    · simp [sexpr, ofSexpr?, ofSexprs?, hobject.read, hposition.read, ofParts?, unplaced, hbracket]
  | indexAssign object position value bracket =>
    simp only [slots, TokenSlot.genuine_cons, TokenSlot.genuine_append] at hgenuine
    rw [numbers, allFinite_append, allFinite_append, allFinite_append] at hfinite
    have hobject := shown object hgenuine.1 hfinite.1.1.1
    have hposition := shown position hgenuine.2.2.1 hfinite.1.1.2
    have hvalue := shown value hgenuine.2.2.2.2.2 hfinite.1.2
    have hbracket := Token.unplaced_eq_of_kept rfl hgenuine.2.2.2.1
    constructor
    · -- The part in front is the outline of the element that is assigned to.
      have htarget : (Sexpr.list [.leaf "index", object.sexpr, position.sexpr]).Legible :=
        .cons_leaf (by decide) (by simp [hobject.legible, hposition.legible])
      exact .cons_leaf (by decide) (by simp [htarget, hvalue.legible])
    · simp [sexpr, ofSexpr?, ofSexprs?, hobject.read, hposition.read, hvalue.read, ofParts?,
        unplaced, hbracket]
termination_by structural e

/-- Expressions that come from genuine tokens can be read off the outline one by one. -/
theorem Expr.allShown (es : List Expr) (hgenuine : ∀ e ∈ es, TokenSlot.Genuine e.slots)
    (hfinite : AllFinite (Expr.numbersOf es)) : Expr.AllShown es := by
  cases es with
  | nil => exact ⟨List.forall_mem_nil _, rfl⟩
  | cons e rest =>
    rw [numbersOf, allFinite_append] at hfinite
    obtain ⟨he, hrest⟩ := List.forall_mem_cons.1 hgenuine
    have hfirst := shown e he hfinite.1
    -- What is legible is read back, so the list is read back from its parts.
    have hothers := allShown rest hrest hfinite.2
    constructor
    · exact List.forall_mem_cons.2 ⟨hfirst.legible, hothers.legible⟩
    · simp [sexprs, ofSexprs?, hfirst.read, hothers.read, unplacedOf]
termination_by structural es

end

/-! ## Statements -/

/-- The head of a read statement is read as its kind. -/
theorem Stmt.ofParts?_read (kind : ReadKind) (target : Expr) :
    Stmt.ofParts? kind.text [target] = some (.read kind kind.kind.unplaced target) := by
  cases kind <;> rfl

/-- The words that statements without statements in them begin with. -/
def Stmt.simpleHeads : List String :=
  ["expr", "print", "variable", "return", "readnumber", "readstring", "readboolean"]

/-- The parts of a statement without statements in it are expressions. -/
theorem Stmt.ofSexpr?_of_mem_simpleHeads {head : String} (hhead : head ∈ simpleHeads)
    (parts : List Sexpr) :
    Stmt.ofSexpr? (.list (.leaf head :: parts)) = (Expr.ofSexprs? parts).bind
      (Stmt.ofParts? head) := by
  simp only [simpleHeads, List.mem_cons, List.not_mem_nil, or_false] at hhead
  obtain rfl | rfl | rfl | rfl | rfl | rfl | rfl := hhead <;> rfl

/-- Names with commas between them are genuine one by one. -/
theorem Token.genuine_of_slotsBehind {names : List Token}
    (h : TokenSlot.Genuine (Token.slotsBehind names)) :
    ∀ name ∈ names, ∃ t : Token, t.Genuine ∧ (TokenSlot.ofName name).Admits t := by
  intro name hname
  exact h _ (List.mem_flatMap.2 ⟨name, hname, by simp⟩)

/-- If the slots of parameters are genuine, each of them is. -/
theorem Token.genuine_of_slotsOf {names : List Token}
    (h : TokenSlot.Genuine (Token.slotsOf names)) :
    ∀ name ∈ names, ∃ t : Token, t.Genuine ∧ (TokenSlot.ofName name).Admits t := by
  cases names with
  | nil => exact List.forall_mem_nil _
  | cons name rest =>
    rw [slotsOf, TokenSlot.genuine_cons] at h
    exact List.forall_mem_cons.2 ⟨h.1, genuine_of_slotsBehind h.2⟩

/-- Parameters are read back from their names. -/
theorem Token.mapM_ofSexpr?_map_sexpr {names : List Token}
    (h : ∀ name ∈ names, ∃ t : Token, t.Genuine ∧ (TokenSlot.ofName name).Admits t) :
    (names.map Token.sexpr).mapM Token.ofSexpr? = some (names.map Token.unplaced) := by
  induction names with
  | nil => rfl
  | cons name rest ih =>
    obtain ⟨hname, hrest⟩ := List.forall_mem_cons.1 h
    obtain ⟨htoken, -⟩ := unplaced_eq_of_ofName hname
    rw [List.map_cons, List.mapM_cons, ih hrest]
    simp [sexpr, ofSexpr?, htoken]

/-- If the slots of statements are genuine, those of each of them are. -/
theorem Stmt.genuine_of_slotsOf {body : List Stmt} (h : TokenSlot.Genuine (Stmt.slotsOf body)) :
    ∀ s ∈ body, TokenSlot.Genuine s.slots := by
  induction body with
  | nil => exact List.forall_mem_nil _
  | cons s rest ih =>
    rw [slotsOf, TokenSlot.genuine_append] at h
    exact List.forall_mem_cons.2 ⟨h.1, ih h.2⟩

/-- The outline of a statement can be told from a text, and the statement apart from places from
    it. -/
structure Stmt.Shown (s : Stmt) : Prop where
  legible : s.sexpr.Legible
  read : Stmt.ofSexpr? s.sexpr = some s.unplaced

/-- The same for some statements. -/
structure Stmt.AllShown (body : List Stmt) : Prop where
  legible : ∀ s ∈ Stmt.sexprs body, s.Legible
  read : Stmt.ofSexprs? (Stmt.sexprs body) = some (Stmt.unplacedOf body)

mutual

/-- Statements of genuine tokens, without infinities, are shown. -/
theorem Stmt.shown (s : Stmt) (hgenuine : TokenSlot.Genuine s.slots)
    (hfinite : AllFinite s.numbers) : s.Shown := by
  -- In each case the parts are legible, so the whole is, and reading it puts the parts that are
  -- read together.
  cases s with
  | expression value =>
    simp only [slots, TokenSlot.genuine_append] at hgenuine
    have hvalue := value.shown hgenuine.1 hfinite
    constructor
    · exact .cons_leaf (by decide) (by simp [hvalue.legible])
    · rw [sexpr, ofSexpr?_of_mem_simpleHeads (by decide)]
      simp [Expr.ofSexprs?, hvalue.read, ofParts?, unplaced]
  | print keyword value =>
    simp only [slots, TokenSlot.genuine_cons, TokenSlot.genuine_append] at hgenuine
    rw [numbers, allFinite_append] at hfinite
    have hkeyword := Token.unplaced_eq_of_kept rfl hgenuine.1
    have hvalue := value.shown hgenuine.2.1 hfinite.2
    constructor
    · exact .cons_leaf (by decide) (by simp [hvalue.legible])
    · rw [sexpr, ofSexpr?_of_mem_simpleHeads (by decide)]
      simp [Expr.ofSexprs?, hvalue.read, ofParts?, unplaced, hkeyword]
  | declare name init =>
    simp only [slots, TokenSlot.genuine_cons, TokenSlot.genuine_append] at hgenuine
    rw [numbers, allFinite_append] at hfinite
    have hlegible := Token.legible_sexpr hgenuine.2.1
    -- Without its place, the token of a name is known by its lexeme.
    obtain ⟨htoken, hname, hword⟩ := Token.unplaced_eq_of_ofName hgenuine.2.1
    have hread : Expr.ofSexpr? name.sexpr = some (.name (.named name.lexeme)) :=
      Expr.ofLeaf?_name hname hword
    cases init with
    | none =>
      constructor
      · exact .cons_leaf (by decide) (by simp [Expr.sexpr?, hlegible])
      · rw [sexpr, ofSexpr?_of_mem_simpleHeads (by decide)]
        simp [Expr.sexpr?, Expr.ofSexprs?, hread, ofParts?, unplaced, htoken]
    | some init =>
      simp only [Expr.initializerSlots, TokenSlot.genuine_cons] at hgenuine
      have hinit := init.shown hgenuine.2.2.1.2 hfinite.2
      constructor
      · exact .cons_leaf (by decide) (by simp [Expr.sexpr?, hlegible, hinit.legible])
      · rw [sexpr, ofSexpr?_of_mem_simpleHeads (by decide)]
        simp [Expr.sexpr?, Expr.ofSexprs?, hread, hinit.read, ofParts?, unplaced, htoken]
  | block body =>
    simp only [slots, TokenSlot.genuine_cons, TokenSlot.genuine_append] at hgenuine
    have hbody := allShown body (genuine_of_slotsOf hgenuine.2.1) hfinite
    constructor
    · exact .cons_leaf (by decide) hbody.legible
    · simp [sexpr, ofSexpr?, hbody.read, unplaced]
  | ifThen condition consequent =>
    simp only [slots, TokenSlot.genuine_cons, TokenSlot.genuine_append] at hgenuine
    rw [numbers, allFinite_append] at hfinite
    have hcondition := condition.shown hgenuine.2.2.1 hfinite.1
    have hconsequent := shown consequent hgenuine.2.2.2.2 hfinite.2
    constructor
    · exact .cons_leaf (by decide) (by simp [hcondition.legible, hconsequent.legible])
    · simp [sexpr, ofSexpr?, hcondition.read, hconsequent.read, unplaced]
  | ifThenElse condition consequent alternative =>
    simp only [slots, TokenSlot.genuine_cons, TokenSlot.genuine_append] at hgenuine
    rw [numbers, allFinite_append, allFinite_append] at hfinite
    have hcondition := condition.shown hgenuine.2.2.1 hfinite.1.1
    have hconsequent := shown consequent hgenuine.2.2.2.2.1 hfinite.1.2
    have halternative := shown alternative hgenuine.2.2.2.2.2.2 hfinite.2
    constructor
    · exact .cons_leaf (by decide) (by simp [hcondition.legible, hconsequent.legible,
        halternative.legible])
    · simp [sexpr, ofSexpr?, hcondition.read, hconsequent.read, halternative.read, unplaced]
  | loop condition body =>
    simp only [slots, TokenSlot.genuine_cons, TokenSlot.genuine_append] at hgenuine
    rw [numbers, allFinite_append] at hfinite
    have hcondition := condition.shown hgenuine.2.2.1 hfinite.1
    have hbody := shown body hgenuine.2.2.2.2 hfinite.2
    constructor
    · exact .cons_leaf (by decide) (by simp [hcondition.legible, hbody.legible])
    · simp [sexpr, ofSexpr?, hcondition.read, hbody.read, unplaced]
  | function name params body =>
    simp only [slots, TokenSlot.genuine_cons, TokenSlot.genuine_append] at hgenuine
    rw [numbers, allFinite_append, allFinite_append] at hfinite
    obtain ⟨htoken, -⟩ := Token.unplaced_eq_of_ofName hgenuine.2.1
    -- The parameters are a list of their own, between the name and the body.
    have hgenuines := Token.genuine_of_slotsOf hgenuine.2.2.2.1
    have hparams : ∀ s ∈ params.map Token.sexpr, s.Legible :=
      List.forall_mem_map.2 fun param hparam => Token.legible_sexpr (hgenuines param hparam)
    have hbody := allShown body (genuine_of_slotsOf hgenuine.2.2.2.2.2.2.1) hfinite.2
    constructor
    · exact .cons_leaf (by decide) (List.forall_mem_cons.2
        ⟨Token.legible_sexpr hgenuine.2.1, List.forall_mem_cons.2 ⟨.list hparams, hbody.legible⟩⟩)
    · simp [-List.mapM_map, sexpr, Token.sexpr, ofSexpr?, Token.mapM_ofSexpr?_map_sexpr hgenuines,
        hbody.read, unplaced, htoken]
  | result keyword value =>
    simp only [slots, TokenSlot.genuine_cons, TokenSlot.genuine_append] at hgenuine
    rw [numbers, allFinite_append] at hfinite
    have hkeyword := Token.unplaced_eq_of_kept rfl hgenuine.1
    cases value with
    | none =>
      constructor
      · exact .cons_leaf (by decide) (by simp [Expr.sexpr?])
      · rw [sexpr, ofSexpr?_of_mem_simpleHeads (by decide)]
        simp [Expr.sexpr?, Expr.ofSexprs?, ofParts?, unplaced, hkeyword]
    | some value =>
      have hvalue := value.shown hgenuine.2.1 hfinite.2
      constructor
      · exact .cons_leaf (by decide) (by simp [Expr.sexpr?, hvalue.legible])
      · rw [sexpr, ofSexpr?_of_mem_simpleHeads (by decide)]
        simp [Expr.sexpr?, Expr.ofSexprs?, hvalue.read, ofParts?, unplaced, hkeyword]
  | read kind keyword target =>
    simp only [slots, TokenSlot.genuine_cons, TokenSlot.genuine_append] at hgenuine
    rw [numbers, allFinite_append] at hfinite
    have hkeyword := Token.unplaced_eq_of_kept (by cases kind <;> rfl) hgenuine.1
    have htarget := target.shown hgenuine.2.1 hfinite.2
    constructor
    · exact .cons_leaf (by cases kind <;> decide) (by simp [htarget.legible])
    · rw [sexpr, ofSexpr?_of_mem_simpleHeads (by cases kind <;> decide)]
      simp [Expr.ofSexprs?, htarget.read, ofParts?_read, unplaced, hkeyword]
termination_by structural s

/-- Statements that come from genuine tokens can be read off the outline one by one. -/
theorem Stmt.allShown (body : List Stmt) (hgenuine : ∀ s ∈ body, TokenSlot.Genuine s.slots)
    (hfinite : AllFinite (Stmt.numbersOf body)) : Stmt.AllShown body := by
  cases body with
  | nil => exact ⟨List.forall_mem_nil _, rfl⟩
  | cons s rest =>
    rw [numbersOf, allFinite_append] at hfinite
    obtain ⟨hs, hrest⟩ := List.forall_mem_cons.1 hgenuine
    have hfirst := shown s hs hfinite.1
    -- As for expressions.
    have hothers := allShown rest hrest hfinite.2
    constructor
    · exact List.forall_mem_cons.2 ⟨hfirst.legible, hothers.legible⟩
    · simp [sexprs, ofSexprs?, hfirst.read, hothers.read, unplacedOf]
termination_by structural body

end

/-! ## Programs -/

/-- Statements are shown one after the other. -/
theorem Stmt.sexprs_eq_map (body : List Stmt) : Stmt.sexprs body = body.map Stmt.sexpr := by
  induction body with
  | nil => rfl
  | cons s rest ih => rw [sexprs, ih, List.map_cons]

/-- The outline of a program has one line for each statement. -/
theorem Program.toList_outline (p : Program) :
    p.outline.toList = Sexpr.joined '\n' (Stmt.sexprs p.statements) := by
  have hnewline : String.singleton '\n' = "\n" := rfl
  rw [← Sexpr.toList_intercalate_text, Stmt.sexprs_eq_map, List.map_map, hnewline]
  rfl

/-- Of genuine tokens and without infinities, programs have the same outline if and only if they are
    the same apart from places. -/
theorem Program.outline_eq_iff {p q : Program} (hp : TokenSlot.Genuine p.slots)
    (hq : TokenSlot.Genuine q.slots)
    (hpfinite : AllFinite p.numbers) (hqfinite : AllFinite q.numbers) :
    p.outline = q.outline ↔ p.unplaced = q.unplaced := by
  have hpshown := Stmt.allShown p.statements (Stmt.genuine_of_slotsOf hp) hpfinite
  have hqshown := Stmt.allShown q.statements (Stmt.genuine_of_slotsOf hq) hqfinite
  constructor
  · intro h
    have htext : Sexpr.joined '\n' (Stmt.sexprs p.statements) ++ [] =
        Sexpr.joined '\n' (Stmt.sexprs q.statements) ++ [] := by
      rw [← toList_outline, ← toList_outline, h]
    -- The same text is that of the same S-expressions, from which the same statements are read.
    have hclosed : Sexpr.Closed [] := nofun
    obtain ⟨hsexprs, -⟩ :=
      Sexpr.joined_inj (.inr rfl) hpshown.legible hqshown.legible hclosed hclosed htext
    have hread := hpshown.read
    rw [hsexprs, hqshown.read] at hread
    exact congrArg Program.mk (Option.some.inj hread).symm
  · intro h
    have hsexprs : Stmt.sexprs p.statements = Stmt.sexprs q.statements := by
      rw [← Stmt.sexprs_unplacedOf, ← Stmt.sexprs_unplacedOf q.statements]
      exact congrArg (Stmt.sexprs ∘ Program.statements) h
    rw [← String.toList_inj, toList_outline, toList_outline, hsexprs]

end Treewalk
