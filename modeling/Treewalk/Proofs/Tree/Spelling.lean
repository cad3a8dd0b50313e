import Mathlib.Data.List.Forall2
import Treewalk.Tree

/-!
# How trees are spelled

A tree stands for a list of tokens, which is read off it from left to right: its *slots*. A slot
says what the grammar wants of the token at this place, which is a `Symbol`, and what the tree has
kept of it. `Spells slots tokens` says that a list of tokens fits, slot by slot. All that the tree
has not kept is free: the lexeme of a parenthesis, the line of an operator.

`Program.yield` is the list of the symbols alone. Different trees may have the same yield, as the
tree also says how its parts are grouped; `Spells.map_symbol` says that the tokens that spell a tree
have its yield for their symbols.
-/

namespace Treewalk

/-- What a token means to the grammar: the kind of a keyword, an operator or a delimiter, the name
    that an identifier spells, or the value that a literal token carries. -/
inductive Symbol where
  | fixed (kind : Kind)
  | name (lexeme : String)
  | value (literal : TokenLiteral)
deriving DecidableEq

/-- Is there only one symbol for the tokens of this kind? -/
def Kind.isFixed : Kind → Bool
  | .identifier | .number | .string => false
  | _ => true

/-- The symbol of a token. A number or string token that carries nothing means nothing but its
    kind. -/
def Token.symbol (t : Token) : Symbol :=
  match t.kind with
  | .identifier => .name t.lexeme
  | .number | .string =>
    match t.literal with
    | some literal => .value literal
    | none => .fixed t.kind
  | _ => .fixed t.kind

/-- Only a token of a kind has the symbol of the kind. -/
theorem Token.kind_of_symbol {t : Token} {kind : Kind} (h : t.symbol = .fixed kind) :
    t.kind = kind := by
  unfold Token.symbol at h
  split at h
  · exact nomatch h
  · split at h
    · exact nomatch h
    · exact Symbol.fixed.inj h
  · split at h
    · exact nomatch h
    · exact Symbol.fixed.inj h
  · exact Symbol.fixed.inj h

/-- The tokens of a kind without values are those with its symbol. -/
theorem Token.symbol_eq_fixed_iff {t : Token} {kind : Kind} (hfixed : kind.isFixed = true) :
    t.symbol = .fixed kind ↔ t.kind = kind := by
  refine ⟨kind_of_symbol, fun h => ?_⟩
  subst h
  unfold Token.symbol
  unfold Kind.isFixed at hfixed
  split <;> simp_all

/-- The tokens that spell a name are the identifiers with it. -/
theorem Token.symbol_eq_name_iff {t : Token} {lexeme : String} :
    t.symbol = .name lexeme ↔ t.kind = .identifier ∧ t.lexeme = lexeme := by
  unfold Token.symbol
  split
  · next h => simp [h]
  · next h => split <;> simp [h]
  · next h => split <;> simp [h]
  · next h _ _ => simpa using fun hname => absurd hname h

/-- The tokens with a value are the number and string tokens that carry it. -/
theorem Token.symbol_eq_value_iff {t : Token} {literal : TokenLiteral} :
    t.symbol = .value literal ↔
      (t.kind = .number ∨ t.kind = .string) ∧ t.literal = some literal := by
  unfold Token.symbol
  split
  · next h => simp [h]
  · next h => split <;> simp_all
  · next h => split <;> simp_all
  · next hnumber hstring => simpa using fun h => absurd h (not_or.2 ⟨hnumber, hstring⟩)

/-- What a tree says about one of the tokens that it stands for. It has kept nothing of it, or where
    it is, or all of it. -/
inductive TokenSlot where
  | open (symbol : Symbol)
  | placed (symbol : Symbol) (span : Span)
  | kept (symbol : Symbol) (token : Token)

namespace TokenSlot

/-- What the grammar wants at a slot. -/
def symbol : TokenSlot → Symbol
  | .open s | placed s _ | kept s _ => s

/-- Does a token fit into a slot? -/
def Admits (slot : TokenSlot) (t : Token) : Prop :=
  t.symbol = slot.symbol ∧
    match slot with
    | .open _ => True
    | placed _ span => t.span = span
    | kept _ token => t = token

/-- The slot of a name. -/
def ofName (token : Token) : TokenSlot := kept (.name token.lexeme) token

/-- The slot of a token of which nothing is kept. -/
def ofKind (kind : Kind) : TokenSlot := .open (.fixed kind)

/-- A slot of a kind admits the tokens that stand for this kind alone. -/
@[simp] theorem admits_ofKind {kind : Kind} {t : Token} :
    (ofKind kind).Admits t ↔ t.symbol = .fixed kind := by
  simp [ofKind, Admits, symbol]

/-- What fits into the slot for a kind is of the kind. -/
theorem Admits.kind_eq {kind : Kind} {t : Token} (h : (ofKind kind).Admits t) : t.kind = kind :=
  Token.kind_of_symbol (admits_ofKind.1 h)

/-- An open slot admits the tokens with its symbol, wherever they are. -/
@[simp] theorem admits_open {s : Symbol} {t : Token} :
    (TokenSlot.open s).Admits t ↔ t.symbol = s := by
  simp [Admits, symbol]

/-- A placed slot admits the tokens with its symbol at its place. -/
@[simp] theorem admits_placed {s : Symbol} {span : Span} {t : Token} :
    (placed s span).Admits t ↔ t.symbol = s ∧ t.span = span := Iff.rfl

/-- A slot that has kept a token admits this token only. -/
@[simp] theorem admits_kept {s : Symbol} {token t : Token} :
    (kept s token).Admits t ↔ t = token ∧ t.symbol = s := by
  simp [Admits, symbol, and_comm]

/-- Only the name itself fits into its slot, and it has to be an identifier. -/
@[simp] theorem admits_ofName {token t : Token} :
    (ofName token).Admits t ↔ t = token ∧ t.kind = .identifier := by
  rw [ofName, admits_kept, Token.symbol_eq_name_iff]
  constructor
  · rintro ⟨rfl, h, _⟩
    exact ⟨rfl, h⟩
  · rintro ⟨rfl, h⟩
    exact ⟨rfl, h, rfl⟩

end TokenSlot

/-! ## Slots of a tree -/

/-- The symbol of a literal. -/
def Literal.symbol : Literal → Symbol
  | null => .fixed .nullWord
  | bool true => .fixed .trueWord
  | bool false => .fixed .falseWord
  | number value => .value (.number value)
  | string text => .value (.string text)

/-- The kind of token that an operator in front of its operand is written with. -/
def UnaryOp.kind : UnaryOp → Kind
  | neg => .minus
  | not => .bang

/-- The kind of token that an operator between its operands is written with. -/
def BinaryOp.kind : BinaryOp → Kind
  | add => .plus
  | sub => .minus
  | mul => .star
  | div => .slash
  | rem => .percent
  | pow => .caret
  | eq => .eqEq
  | ne => .ne
  | lt => .lt
  | le => .le
  | gt => .gt
  | ge => .ge

/-- The kind of token that a logical operator is written with. -/
def LogicalOp.kind : LogicalOp → Kind
  | and => .andWord
  | or => .orWord

/-- The keyword that reads. -/
def ReadKind.kind : ReadKind → Kind
  | number => .readNumberWord
  | string => .readStringWord
  | boolean => .readBooleanWord

mutual

/-- The tokens that an expression stands for. -/
def Expr.slots : Expr → List TokenSlot
  | .literal value => [.open value.symbol]
  | .group inner => .ofKind .lParen :: (inner.slots ++ [.ofKind .rParen])
  | .unary op operand span => .placed (.fixed op.kind) span :: operand.slots
  | .binary op left right span => left.slots ++ .placed (.fixed op.kind) span :: right.slots
  | .logical op left right => left.slots ++ .ofKind op.kind :: right.slots
  | .assign token value => .ofName token :: .ofKind .eq :: value.slots
  | .name token => [.ofName token]
  | .call callee args paren =>
    callee.slots ++ .ofKind .lParen :: (Expr.slotsOf args ++ [.kept (.fixed .rParen) paren])
  | .array elements => .ofKind .lBracket :: (Expr.slotsOf elements ++ [.ofKind .rBracket])
  | .index object position bracket =>
    object.slots ++ .ofKind .lBracket :: (position.slots ++ [.kept (.fixed .rBracket) bracket])
  | .indexAssign object position value bracket =>
    object.slots ++ .ofKind .lBracket ::
      (position.slots ++ .kept (.fixed .rBracket) bracket :: .ofKind .eq :: value.slots)

/-- Expressions with commas between them. -/
def Expr.slotsOf : List Expr → List TokenSlot
  | [] => []
  | e :: rest => e.slots ++ Expr.slotsBehind rest

/-- Expressions with a comma in front of each. -/
def Expr.slotsBehind : List Expr → List TokenSlot
  | [] => []
  | e :: rest => .ofKind .comma :: (e.slots ++ Expr.slotsBehind rest)

end

/-- Names with a comma in front of each. -/
def Token.slotsBehind (names : List Token) : List TokenSlot :=
  names.flatMap fun name => [.ofKind .comma, .ofName name]

/-- Names with commas between them. -/
def Token.slotsOf : List Token → List TokenSlot
  | [] => []
  | name :: rest => .ofName name :: Token.slotsBehind rest

/-- What may stand between the name and the semicolon of a variable declaration. -/
def Expr.initializerSlots : Option Expr → List TokenSlot
  | some e => .ofKind .eq :: e.slots
  | none => []

/-- An expression that may be left out. -/
def Expr.optionalSlots : Option Expr → List TokenSlot
  | some e => e.slots
  | none => []

mutual

/-- The tokens that a statement stands for. -/
def Stmt.slots : Stmt → List TokenSlot
  | .expression value => value.slots ++ [.ofKind .semi]
  | .print keyword value => .kept (.fixed .printWord) keyword :: (value.slots ++ [.ofKind .semi])
  | .declare name init =>
    .ofKind .variableWord :: .ofName name :: (Expr.initializerSlots init ++ [.ofKind .semi])
  | .block body => .ofKind .lBrace :: (Stmt.slotsOf body ++ [.ofKind .rBrace])
  | .ifThen condition consequent =>
    .ofKind .ifWord :: .ofKind .lParen :: (condition.slots ++ .ofKind .rParen :: consequent.slots)
  | .ifThenElse condition consequent alternative =>
    .ofKind .ifWord :: .ofKind .lParen ::
      (condition.slots ++ .ofKind .rParen ::
        (consequent.slots ++ .ofKind .elseWord :: alternative.slots))
  | .loop condition body =>
    .ofKind .whileWord :: .ofKind .lParen :: (condition.slots ++ .ofKind .rParen :: body.slots)
  | .function name params body =>
    .ofKind .functionWord :: .ofName name :: .ofKind .lParen ::
      (Token.slotsOf params ++ .ofKind .rParen :: .ofKind .lBrace ::
        (Stmt.slotsOf body ++ [.ofKind .rBrace]))
  | .result keyword value =>
    .kept (.fixed .returnWord) keyword :: (Expr.optionalSlots value ++ [.ofKind .semi])
  | .read kind keyword target =>
    .kept (.fixed kind.kind) keyword :: (target.slots ++ [.ofKind .semi])

/-- The tokens that statements stand for. -/
def Stmt.slotsOf : List Stmt → List TokenSlot
  | [] => []
  | s :: rest => s.slots ++ Stmt.slotsOf rest

end

/-- Statements one behind the other. -/
theorem Stmt.slotsOf_append (a b : List Stmt) : slotsOf (a ++ b) = slotsOf a ++ slotsOf b := by
  induction a with
  | nil => rfl
  | cons s rest ih => rw [List.cons_append, slotsOf, slotsOf, ih, List.append_assoc]

/-- The tokens that a program stands for. -/
def Program.slots (p : Program) : List TokenSlot := Stmt.slotsOf p.statements

/-- A program flattened to the symbols of its tokens, from left to right. -/
def Program.yield (p : Program) : List Symbol := p.slots.map TokenSlot.symbol

/-! ## Tokens for slots -/

/-- Do the tokens fit into the slots, one into each? -/
def Spells (slots : List TokenSlot) (tokens : List Token) : Prop :=
  List.Forall₂ TokenSlot.Admits slots tokens

namespace Spells

/-- No slots are spelled by no tokens. -/
theorem nil : Spells [] [] := List.Forall₂.nil

/-- A slot is spelled by a token that it admits, and the others by those behind. -/
theorem cons {slot : TokenSlot} {slots : List TokenSlot} {t : Token} {tokens : List Token}
    (h : slot.Admits t)
    (hs : Spells slots tokens) : Spells (slot :: slots) (t :: tokens) := List.Forall₂.cons h hs

/-- Slots are spelled one list after the other. -/
theorem append {a b : List TokenSlot} {ta tb : List Token} (ha : Spells a ta) (hb : Spells b tb) :
    Spells (a ++ b) (ta ++ tb) := List.rel_append ha hb

/-- Only no tokens fit into no slots. -/
theorem eq_nil {tokens : List Token} (h : Spells [] tokens) : tokens = [] := by
  cases h
  rfl

/-- The token for the first slot is the first token. -/
theorem exists_cons {slot : TokenSlot} {slots : List TokenSlot} {tokens : List Token}
    (h : Spells (slot :: slots) tokens) :
    ∃ t rest, tokens = t :: rest ∧ slot.Admits t ∧ Spells slots rest := by
  cases h with
  | cons hfirst hrest => exact ⟨_, _, rfl, hfirst, hrest⟩

/-- The tokens for slots one behind the other are a part for the first ones and a part for the
    others. -/
theorem exists_append {a b : List TokenSlot} {tokens : List Token} (h : Spells (a ++ b) tokens) :
    ∃ ta tb, tokens = ta ++ tb ∧ Spells a ta ∧ Spells b tb := by
  induction a generalizing tokens with
  | nil => exact ⟨[], tokens, rfl, nil, h⟩
  | cons slot a ih =>
    obtain ⟨t, rest, rfl, hfirst, hrest⟩ := exists_cons h
    obtain ⟨ta, tb, rfl, ha, hb⟩ := ih hrest
    exact ⟨t :: ta, tb, rfl, ha.cons hfirst, hb⟩

/-- The tokens for slots between two others are the tokens for them between two others. -/
theorem exists_enclosed {slot slot' : TokenSlot} {slots : List TokenSlot} {tokens : List Token}
    (h : Spells (slot :: (slots ++ [slot'])) tokens) :
    ∃ t inner t', tokens = t :: (inner ++ [t']) ∧ slot.Admits t ∧ Spells slots inner ∧
      slot'.Admits t' := by
  obtain ⟨t, _, rfl, hfirst, hothers⟩ := h.exists_cons
  obtain ⟨inner, _, rfl, hinner, hlast⟩ := hothers.exists_append
  obtain ⟨t', _, rfl, hclosing, hnil⟩ := hlast.exists_cons
  obtain rfl := hnil.eq_nil
  exact ⟨t, inner, t', rfl, hfirst, hinner, hclosing⟩

/-- The tokens for a keyword with a condition behind it, and for what follows the condition. -/
theorem exists_condition {keyword : Kind} {e : Expr} {slots : List TokenSlot} {tokens : List Token}
    (h : Spells (.ofKind keyword :: .ofKind .lParen :: (e.slots ++ .ofKind .rParen :: slots))
      tokens) :
    ∃ t opening te closing others, tokens = t :: opening :: (te ++ closing :: others) ∧
      t.kind = keyword ∧ opening.kind = .lParen ∧ Spells e.slots te ∧ closing.kind = .rParen ∧
      Spells slots others := by
  obtain ⟨t, _, rfl, hfirst, hbehind⟩ := h.exists_cons
  obtain ⟨opening, _, rfl, hopening, hinside⟩ := hbehind.exists_cons
  obtain ⟨te, _, rfl, hspells, hlast⟩ := hinside.exists_append
  obtain ⟨closing, others, rfl, hclosing, hothers⟩ := hlast.exists_cons
  exact ⟨t, opening, te, closing, others, rfl, hfirst.kind_eq, hopening.kind_eq, hspells,
    hclosing.kind_eq, hothers⟩

/-- There are as many tokens as slots. -/
theorem length_eq {slots : List TokenSlot} {tokens : List Token} (h : Spells slots tokens) :
    slots.length = tokens.length := List.Forall₂.length_eq h

/-- The tokens have the symbols that the slots want. -/
theorem map_symbol {slots : List TokenSlot} {tokens : List Token} (h : Spells slots tokens) :
    tokens.map Token.symbol = slots.map TokenSlot.symbol := by
  induction h with
  | nil => rfl
  | cons hfirst _ ih => rw [List.map_cons, List.map_cons, hfirst.1, ih]

end Spells

/-! ## Which trees can be spelled -/

/-- Does some token in front of the end mark have the symbol? An identifier has its name for its
    symbol. -/
def Symbol.isWritten : Symbol → Bool
  | fixed .identifier | fixed .eof => false
  | _ => true

/-- Do all of the slots want something that can be written? -/
def TokenSlot.Written (slots : List TokenSlot) : Prop :=
  ∀ slot ∈ slots, slot.symbol.isWritten = true

namespace TokenSlot.Written

/-- Where there are no slots, all can be written. -/
theorem nil : Written [] := List.forall_mem_nil _

/-- The first slot has to be one that can be written, and so do the others. -/
theorem cons {slot : TokenSlot} {slots : List TokenSlot} (h : slot.symbol.isWritten = true)
    (hs : Written slots) : Written (slot :: slots) := List.forall_mem_cons.2 ⟨h, hs⟩

/-- The slots of two lists can be written if those of both can. -/
theorem append {a b : List TokenSlot} (ha : Written a) (hb : Written b) : Written (a ++ b) :=
  List.forall_mem_append.2 ⟨ha, hb⟩

end TokenSlot.Written

section

open TokenSlot.Written

/-- Every literal can be written. -/
theorem Literal.isWritten_symbol (value : Literal) : value.symbol.isWritten = true := by
  cases value with
  | bool value => cases value <;> rfl
  | _ => rfl

mutual

/-- An expression stands for what can be written. -/
theorem Expr.written_slots (e : Expr) : TokenSlot.Written e.slots := by
  -- All symbols of a tree are fixed ones, names or literals.
  cases e with
  | literal value => exact cons value.isWritten_symbol nil
  | group inner => exact cons rfl (inner.written_slots.append (cons rfl nil))
  | unary op operand span => exact cons (by cases op <;> rfl) operand.written_slots
  | binary op left right span =>
    exact left.written_slots.append (cons (by cases op <;> rfl) right.written_slots)
  | logical op left right =>
    exact left.written_slots.append (cons (by cases op <;> rfl) right.written_slots)
  | assign token value => exact cons rfl (cons rfl value.written_slots)
  | name token => exact cons rfl nil
  | call callee args paren =>
    exact callee.written_slots.append (cons rfl ((Expr.written_slotsOf args).append (cons rfl nil)))
  | array elements => exact cons rfl ((Expr.written_slotsOf elements).append (cons rfl nil))
  | index object position bracket =>
    exact object.written_slots.append (cons rfl (position.written_slots.append (cons rfl nil)))
  | indexAssign object position value bracket =>
    exact object.written_slots.append (cons rfl
      (position.written_slots.append (cons rfl (cons rfl value.written_slots))))

/-- The slots of arguments can be written. -/
theorem Expr.written_slotsOf (list : List Expr) : TokenSlot.Written (Expr.slotsOf list) := by
  cases list with
  | nil => exact nil
  | cons e rest => exact e.written_slots.append (Expr.written_slotsBehind rest)

/-- The slots behind the first argument can be written. -/
theorem Expr.written_slotsBehind (list : List Expr) :
    TokenSlot.Written (Expr.slotsBehind list) := by
  cases list with
  | nil => exact nil
  | cons e rest => exact cons rfl (e.written_slots.append (Expr.written_slotsBehind rest))

end

/-- The slots behind the first parameter can be written. -/
theorem Token.written_slotsBehind (names : List Token) :
    TokenSlot.Written (Token.slotsBehind names) := by
  induction names with
  | nil => exact nil
  | cons name rest ih => exact cons rfl (cons rfl ih)

/-- The slots of parameters can be written. -/
theorem Token.written_slotsOf (names : List Token) : TokenSlot.Written (Token.slotsOf names) := by
  cases names with
  | nil => exact nil
  | cons name rest => exact cons rfl (Token.written_slotsBehind rest)

mutual

/-- A statement stands for what can be written. -/
theorem Stmt.written_slots (s : Stmt) : TokenSlot.Written s.slots := by
  -- The keywords are symbols of their own, and the end mark is not among them.
  cases s with
  | expression value => exact value.written_slots.append (cons rfl nil)
  | print keyword value => exact cons rfl (value.written_slots.append (cons rfl nil))
  | declare name init =>
    cases init with
    | none => exact cons rfl (cons rfl (cons rfl nil))
    | some e => exact cons rfl (cons rfl (cons rfl (e.written_slots.append (cons rfl nil))))
  | block body => exact cons rfl ((Stmt.written_slotsOf body).append (cons rfl nil))
  | ifThen condition consequent =>
    exact cons rfl (cons rfl (condition.written_slots.append (cons rfl consequent.written_slots)))
  | ifThenElse condition consequent alternative =>
    exact cons rfl (cons rfl (condition.written_slots.append (cons rfl
      (consequent.written_slots.append (cons rfl alternative.written_slots)))))
  | loop condition body =>
    exact cons rfl (cons rfl (condition.written_slots.append (cons rfl body.written_slots)))
  | function name params body =>
    exact cons rfl (cons rfl (cons rfl ((Token.written_slotsOf params).append (cons rfl
      (cons rfl ((Stmt.written_slotsOf body).append (cons rfl nil)))))))
  | result keyword value =>
    cases value with
    | none => exact cons rfl (cons rfl nil)
    | some e => exact cons rfl (e.written_slots.append (cons rfl nil))
  | read kind keyword target =>
    exact cons (by cases kind <;> rfl) (target.written_slots.append (cons rfl nil))

/-- The slots of statements can be written. -/
theorem Stmt.written_slotsOf (body : List Stmt) : TokenSlot.Written (Stmt.slotsOf body) := by
  cases body with
  | nil => exact nil
  | cons s rest => exact s.written_slots.append (Stmt.written_slotsOf rest)

end

end

/-- No token that spells a tree is an end mark. -/
theorem Spells.kind_ne_eof {slots : List TokenSlot} {tokens : List Token} (h : Spells slots tokens)
    (hwritten : TokenSlot.Written slots) : ∀ t ∈ tokens, t.kind ≠ .eof := by
  intro t ht heof
  have hmem : t.symbol ∈ slots.map TokenSlot.symbol := h.map_symbol ▸ List.mem_map_of_mem ht
  obtain ⟨slot, hslot, hsymbol⟩ := List.mem_map.1 hmem
  have hslotWritten := hwritten slot hslot
  rw [hsymbol, (Token.symbol_eq_fixed_iff rfl).2 heof] at hslotWritten
  exact nomatch hslotWritten

/-- Is the token that a tree has kept here one that the grammar wants here? -/
def TokenSlot.WellKept : TokenSlot → Prop
  | kept s token => token.symbol = s
  | _ => True

/-- There is a token at every place for every symbol that can be written. -/
theorem Symbol.exists_token {s : Symbol} (h : s.isWritten = true) (span : Span) :
    ∃ t : Token, t.symbol = s ∧ t.span = span := by
  cases s with
  | fixed kind =>
    refine ⟨.plain kind "" span, ?_, rfl⟩
    cases kind <;> first | rfl | exact nomatch h
  | name lexeme => exact ⟨.plain .identifier lexeme span, rfl, rfl⟩
  | value literal => exact ⟨⟨.number, "", some literal, span.line, span⟩, rfl, rfl⟩

/-- There are tokens for a tree if and only if all tokens that it has kept are where they belong. -/
theorem Spells.exists_iff {slots : List TokenSlot} (hwritten : TokenSlot.Written slots) :
    (∃ tokens, Spells slots tokens) ↔ ∀ slot ∈ slots, slot.WellKept := by
  induction slots with
  | nil => exact ⟨fun _ => List.forall_mem_nil _, fun _ => ⟨[], nil⟩⟩
  | cons slot slots ih =>
    obtain ⟨hfirst, hothers⟩ := List.forall_mem_cons.1 hwritten
    rw [List.forall_mem_cons, ← ih hothers]
    constructor
    · rintro ⟨tokens, h⟩
      obtain ⟨t, rest, rfl, hadmits, hrest⟩ := h.exists_cons
      refine ⟨?_, rest, hrest⟩
      cases slot with
      | kept s token =>
        obtain ⟨rfl, hsymbol⟩ := TokenSlot.admits_kept.1 hadmits
        exact hsymbol
      | _ => exact trivial
    · -- A slot that has kept a token is spelled by it, and for the others some token can be made
      -- up.
      rintro ⟨hkept, tokens, h⟩
      cases slot with
      | kept s token => exact ⟨token :: tokens, cons (TokenSlot.admits_kept.2 ⟨rfl, hkept⟩) h⟩
      | «open» s =>
        obtain ⟨t, hsymbol, -⟩ := Symbol.exists_token hfirst (.point 0 0)
        exact ⟨t :: tokens, cons (TokenSlot.admits_open.2 hsymbol) h⟩
      | placed s span =>
        obtain ⟨t, ht⟩ := Symbol.exists_token hfirst span
        exact ⟨t :: tokens, cons (TokenSlot.admits_placed.2 ht) h⟩

/-- There are tokens for a program if and only if all tokens that it has kept are where they
    belong. -/
theorem Program.exists_spells_iff (p : Program) :
    (∃ tokens, Spells p.slots tokens) ↔ ∀ slot ∈ p.slots, slot.WellKept :=
  Spells.exists_iff (Stmt.written_slotsOf p.statements)

end Treewalk
