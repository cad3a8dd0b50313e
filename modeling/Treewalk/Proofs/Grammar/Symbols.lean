import Treewalk.Grammar.Statement
import Treewalk.Proofs.Tree.Spelling

/-!
# The tables of the grammar and the symbols of tokens

The grammar decides by the kind of the next token which literal, operator or connective it stands
for. These tables agree with the symbols that `Expr.slots` writes: a token that a table reads as
something fits into the slot of it, and the token for a slot is read back as what the slot was
written for.
-/

namespace Treewalk

namespace Grammar

/-- The token of a literal has the symbol of the literal. -/
theorem symbol_of_literal? {t : Token} {value : Literal} (h : literal? t = some value) :
    t.symbol = value.symbol := by
  unfold literal? at h
  unfold Token.symbol
  split at h
  · -- The words stand for themselves, and the other kinds for the literal that the token carries.
    next hkind => cases h; simp [hkind, Literal.symbol]
  · next hkind => cases h; simp [hkind, Literal.symbol]
  · next hkind => cases h; simp [hkind, Literal.symbol]
  · next hkind =>
    obtain ⟨literal, hliteral, rfl⟩ := Option.map_eq_some_iff.1 h
    simp only [hkind, hliteral]
    cases literal <;> rfl
  · next hkind =>
    obtain ⟨literal, hliteral, rfl⟩ := Option.map_eq_some_iff.1 h
    simp only [hkind, hliteral]
    cases literal <;> rfl
  · exact nomatch h

/-- The operator in front of an operand is written with the token that stands for it. -/
theorem kind_of_unaryOp? {kind : Kind} {op : UnaryOp} (h : unaryOp? kind = some op) :
    op.kind = kind := by
  unfold unaryOp? at h
  split at h <;> cases h <;> rfl

/-- What is read is what the keyword says. -/
theorem kind_of_readKind? {kind : Kind} {what : ReadKind} (h : readKind? kind = some what) :
    what.kind = kind := by
  unfold readKind? at h
  split at h <;> cases h <;> rfl

/-- A token with the symbol of a literal is read as the literal. -/
theorem literal?_of_symbol {t : Token} {value : Literal} (h : t.symbol = value.symbol) :
    literal? t = some value := by
  unfold literal?
  -- Numbers and strings are told by the kind of the token, and their literal is what the symbol
  -- keeps.
  cases value with
  | null => rw [Token.kind_of_symbol h]
  | bool value =>
    cases value
    · rw [Token.kind_of_symbol h]
    · rw [Token.kind_of_symbol h]
  | number value =>
    obtain ⟨hkind | hkind, hliteral⟩ := Token.symbol_eq_value_iff.1 h
    · rw [hkind, hliteral]; rfl
    · rw [hkind, hliteral]; rfl
  | string text =>
    obtain ⟨hkind | hkind, hliteral⟩ := Token.symbol_eq_value_iff.1 h
    · rw [hkind, hliteral]; rfl
    · rw [hkind, hliteral]; rfl

/-- The kind of an operator in front of its operand is read as the operator. -/
theorem unaryOp?_kind (op : UnaryOp) : unaryOp? op.kind = some op := by cases op <;> rfl

/-- The keyword that reads is read as such. -/
theorem readKind?_kind (what : ReadKind) : readKind? what.kind = some what := by cases what <;> rfl

/-- A token of a fixed kind fits into the slot for the kind. -/
theorem admits_of_kind {t : Token} {kind : Kind} (hfixed : kind.isFixed = true)
    (h : t.kind = kind) : (TokenSlot.ofKind kind).Admits t :=
      TokenSlot.admits_ofKind.2 ((Token.symbol_eq_fixed_iff hfixed).2 h)

/-- A token of a fixed kind fits into the slot that keeps it. -/
theorem kept_admits_of_kind {t : Token} {kind : Kind} (hfixed : kind.isFixed = true)
    (h : t.kind = kind) : (TokenSlot.kept (.fixed kind) t).Admits t :=
  TokenSlot.admits_kept.2 ⟨rfl, (Token.symbol_eq_fixed_iff hfixed).2 h⟩

/-- An identifier fits into the slot for the name that it is. -/
theorem name_admits_of_kind {t : Token} (h : t.kind = .identifier) :
    (TokenSlot.ofName t).Admits t :=
  TokenSlot.admits_ofName.2 ⟨rfl, h⟩

end Grammar

/-- The kind of token that a connective is written with. -/
def Connective.kind : Connective → Kind
  | binary op => op.kind
  | logical op => op.kind

/-- The slot of a connective. Where a logical one is, is not kept. -/
def Connective.slot (c : Connective) (span : Span) : TokenSlot :=
  match c with
  | binary op => .placed (.fixed op.kind) span
  | logical op => .ofKind op.kind

/-- The slots of two joined expressions. -/
theorem Connective.slots_join (c : Connective) (left right : Expr) (span : Span) :
    (c.join left right span).slots = left.slots ++ c.slot span :: right.slots := by
  cases c <;> rw [Connective.join, Expr.slots, Connective.slot]

/-- The connective of a token is written with the kind of the token. -/
theorem Connective.kind_of_ofKind? {kind : Kind} {c : Connective} (h : ofKind? kind = some c) :
    c.kind = kind := by
  unfold ofKind? at h
  split at h <;> cases h <;> rfl

/-- The token of a connective of some level fits into its slot. -/
theorem Connective.slot_admits {l : Level} {t : Token} {c : Connective}
    (h : atLevel? l t.kind = some c) : (c.slot t.span).Admits t := by
  have hkind : c.kind = t.kind := kind_of_ofKind? (Option.eq_some_of_filter_eq_some h)
  cases c with
  | binary op =>
    have hfixed : op.kind.isFixed = true := by cases op <;> rfl
    exact TokenSlot.admits_placed.2 ⟨(Token.symbol_eq_fixed_iff hfixed).2 hkind.symm, rfl⟩
  | logical op =>
    have hfixed : op.kind.isFixed = true := by cases op <;> rfl
    exact Grammar.admits_of_kind hfixed hkind.symm

/-- The kind of a connective is read as the connective. -/
theorem Connective.ofKind?_kind (c : Connective) : ofKind? c.kind = some c := by
  cases c with
  | binary op => cases op <;> rfl
  | logical op => cases op <;> rfl

/-- The token for the slot of a connective is read as the connective, and what is joined by it is
    the same as what is joined at the place of the token. -/
theorem Connective.of_slot_admits {c : Connective} {span : Span} {t : Token}
    (h : (c.slot span).Admits t) :
    t.kind = c.kind ∧ ∀ left right, c.join left right t.span = c.join left right span := by
  cases c with
  | binary op =>
    obtain ⟨hsymbol, rfl⟩ := TokenSlot.admits_placed.1 h
    exact ⟨Token.kind_of_symbol hsymbol, fun _ _ => rfl⟩
  | logical op => exact ⟨h.kind_eq, fun _ _ => rfl⟩

/-- At its level, a connective is read as itself. -/
theorem Connective.atLevel?_kind (c : Connective) : atLevel? c.level c.kind = some c := by
  rw [atLevel?, ofKind?_kind]
  simp

end Treewalk
