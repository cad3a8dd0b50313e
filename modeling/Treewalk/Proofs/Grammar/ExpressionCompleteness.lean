import Treewalk.Proofs.Grammar.Outcome
import Treewalk.Proofs.Grammar.Symbols
import Treewalk.Proofs.Tree.NormalForm

/-!
# Every expression in normal form is read back

If a list of tokens spells an expression in normal form, then the grammar reads this expression from
it and notes nothing, whatever ends the expression (`Grammar.expression_yields`).

Operators group to the left, so the left side of an operator has been read before the parser knows
that there is an operator. The statements about chains and calls are therefore about what follows:
whatever the rest of a chain yields behind a left side, the chain yields in front of the tokens of
the left side (`chain_goes_on`, `call_goes_on`).

What follows must not go on with the expression: `Stops n rest` says that nothing in front of `rest`
continues an expression that is at least as tight as `n`.
-/

namespace Treewalk

/-! ## Steps that yield a value -/

namespace Step

variable {α β : Type} {n k j m : Nat}

/-- A step reads a value without a note and leaves `rest`. -/
def Yields (s : Step α n k) (a : α) (rest : List Token) : Prop :=
  s.Ensures (fun b rest' notes => b = a ∧ rest' = rest ∧ notes = []) (fun _ _ _ => False)

variable {tokens rest rest' : List Token} {a : α} {b : β}

/-- A step that is done at once yields its value and reads nothing. -/
theorem yields_pure (a : α) (tokens : List Token) : (pure a tokens).Yields a tokens :=
  ⟨rfl, rfl, rfl⟩

/-- A step yields what the next one does from where the first one ends. -/
theorem yields_bind {s : Step α n k}
    {next : α → (rest : List Token) → rest.length + k ≤ n → Step β rest.length j}
    (h : s.Yields a rest) (hnext : ∀ fits, (next a rest fits).Yields b rest') :
    (s.bind next).Yields b rest' := by
  refine (ensures_bind s next).2 (Ensures.imp h ?_ fun _ _ _ hfalse => hfalse)
  intro a' rest'' notes hdone fits
  obtain ⟨rfl, rfl, rfl⟩ := hdone
  exact hnext fits

/-- A step whose value is mapped yields the image of that value. -/
theorem yields_map {s : Step α n k} (g : α → β) (h : s.Yields a rest) :
    (s.map g).Yields (g a) rest := by
  refine (ensures_map g s).2 (Ensures.imp h ?_ fun _ _ _ hfalse => hfalse)
  intro a' rest' notes hdone
  obtain ⟨rfl, hrest, hnotes⟩ := hdone
  exact ⟨rfl, hrest, hnotes⟩

/-- Forgetting that tokens were read does not change what a step yields. -/
theorem yields_maybe {s : Step α n k} (h : s.Yields a rest) : s.maybe.Yields a rest :=
  (ensures_maybe s).2 h

/-- Forgetting all but one of the tokens read does not change what a step yields. -/
theorem yields_once {s : Step α n (k + 1)} (h : s.Yields a rest) : s.once.Yields a rest :=
  (ensures_once s).2 h

/-- A step among more tokens yields what it does among its own. -/
theorem yields_within {s : Step α n k} (hle : n + j ≤ m) (h : s.Yields a rest) :
    (s.within hle).Yields a rest := (ensures_within s hle).2 h

/-- A step behind a token yields what it does without it. -/
theorem yields_behind {s : Step α tokens.length k} (t : Token) (h : s.Yields a rest) :
    (s.behind t).Yields a rest := (ensures_behind s t).2 h

/-- Putting no notes in front of those of a step does not change what it yields. -/
theorem yields_precede {s : Step α n k} (h : s.Yields a rest) : (s.precede []).Yields a rest :=
  (ensures_precede [] s).2 h

/-- A token of the kind that is expected is read. -/
theorem yields_expect {kind : Kind} (f : SyntaxFault) {t : Token} (rest : List Token)
    (h : t.kind = kind) : (expect kind f (t :: rest)).Yields t rest := by
  rw [Yields, ensures_expect_cons, if_pos h]
  exact ⟨rfl, rfl, rfl⟩

end Step

/-! ## What an expression starts with -/

/-- The symbols that an expression may start with which has no operator in front. -/
def Symbol.startsPrimary : Symbol → Bool
  | name _ | value _ => true
  | fixed kind =>
    match kind with
    | .falseWord | .trueWord | .nullWord | .lParen | .lBracket => true
    | _ => false

/-- The symbols that an expression may start with. -/
def Symbol.startsExpression (s : Symbol) : Bool :=
  s.startsPrimary || s == .fixed .bang || s == .fixed .minus

/-- What a primary expression starts with, an expression can start with. -/
theorem Symbol.startsExpression_of_startsPrimary {s : Symbol} (h : s.startsPrimary = true) :
    s.startsExpression = true := by
  rw [startsExpression, h]
  rfl

/-- The symbol of a literal starts it. -/
theorem Literal.startsPrimary_symbol (value : Literal) : value.symbol.startsPrimary = true := by
  cases value with
  | bool value => cases value <;> rfl
  | _ => rfl

/-- The size of an expression is never zero. -/
theorem Expr.sizeOf_pos (e : Expr) : 0 < sizeOf e := by
  cases e <;> simp +arith

/-- An expression starts with a symbol that can start one. -/
theorem Expr.exists_head (e : Expr) :
    ∃ slot slots, e.slots = slot :: slots ∧ slot.symbol.startsExpression = true := by
  cases e with
  -- Only the forms that begin with an operand need the induction: all others begin with a token of
  -- their own.
  | literal value =>
    exact ⟨_, _, rfl, Symbol.startsExpression_of_startsPrimary value.startsPrimary_symbol⟩
  | unary op operand span => exact ⟨_, _, rfl, by cases op <;> rfl⟩
  | binary op left right span =>
    obtain ⟨slot, slots, hslots, hstart⟩ := left.exists_head
    exact ⟨slot, _, by rw [Expr.slots, hslots]; rfl, hstart⟩
  | logical op left right =>
    obtain ⟨slot, slots, hslots, hstart⟩ := left.exists_head
    exact ⟨slot, _, by rw [Expr.slots, hslots]; rfl, hstart⟩
  | call callee args paren =>
    obtain ⟨slot, slots, hslots, hstart⟩ := callee.exists_head
    exact ⟨slot, _, by rw [Expr.slots, hslots]; rfl, hstart⟩
  | index object position bracket =>
    obtain ⟨slot, slots, hslots, hstart⟩ := object.exists_head
    exact ⟨slot, _, by rw [Expr.slots, hslots]; rfl, hstart⟩
  | indexAssign object position value bracket =>
    obtain ⟨slot, slots, hslots, hstart⟩ := object.exists_head
    exact ⟨slot, _, by rw [Expr.slots, hslots]; rfl, hstart⟩
  | _ => exact ⟨_, _, rfl, rfl⟩
termination_by sizeOf e

/-- Calls and what is tighter have no operator in front. -/
theorem Expr.Normal.exists_tight_head {e : Expr} (h : e.Normal)
    (htight : callTightness ≤ e.tightness) :
    ∃ slot slots, e.slots = slot :: slots ∧ slot.symbol.startsPrimary = true := by
  cases h with
  -- A postfix form begins with an operand that is as tight; the looser forms are excluded by the
  -- hypothesis on tightness.
  | literal value => exact ⟨_, _, rfl, value.startsPrimary_symbol⟩
  | name | group | array => exact ⟨_, _, rfl, rfl⟩
  | call hcallee hcalleeTight _ =>
    obtain ⟨slot, slots, hslots, hstart⟩ := hcallee.exists_tight_head hcalleeTight
    exact ⟨slot, _, by rw [Expr.slots, hslots]; rfl, hstart⟩
  | index hobject hobjectTight _ =>
    obtain ⟨slot, slots, hslots, hstart⟩ := hobject.exists_tight_head hobjectTight
    exact ⟨slot, _, by rw [Expr.slots, hslots]; rfl, hstart⟩
  | @binary op =>
    have hle := (Connective.binary op).tightness_le
    simp only [tightness, callTightness] at htight
    omega
  | @logical op =>
    have hle := (Connective.logical op).tightness_le
    simp only [tightness, callTightness] at htight
    omega
  | unary | assign | indexAssign =>
    simp only [tightness, unaryTightness, callTightness] at htight
    omega
termination_by sizeOf e

/-- The tokens of an expression start with one that can start an expression. -/
theorem Spells.exists_head {e : Expr} {tokens : List Token} (h : Spells e.slots tokens) :
    ∃ t rest, tokens = t :: rest ∧ t.symbol.startsExpression = true := by
  obtain ⟨slot, slots, hslots, hstart⟩ := e.exists_head
  rw [hslots] at h
  obtain ⟨t, rest, rfl, hfirst, -⟩ := h.exists_cons
  exact ⟨t, rest, rfl, by rw [hfirst.1]; exact hstart⟩

/-- A token is of no kind whose symbol lacks a property that the symbol of the token has. -/
theorem Token.kind_ne_of_symbol {p : Symbol → Bool} {t : Token} {kind : Kind}
    (h : p t.symbol = true) (hfixed : kind.isFixed = true) (hkind : p (.fixed kind) = false) :
    t.kind ≠ kind := by
  intro heq
  rw [(symbol_eq_fixed_iff hfixed).2 heq, hkind] at h
  exact nomatch h

/-! ## What an expression stops at -/

/-- Nothing in front of `rest` goes on with an expression that is as tight as `n`: neither a call
    nor an index, nor a connective as tight as `n`. -/
def Stops (n : Nat) (rest : List Token) : Prop :=
  ∀ t ∈ rest.head?, t.kind ≠ .lParen ∧ t.kind ≠ .lBracket ∧
    ∀ c, Connective.ofKind? t.kind = some c → c.tightness < n

/-- What goes on with no looser expression goes on with no tighter one. -/
theorem Stops.mono {m n : Nat} {rest : List Token} (h : Stops m rest) (hle : m ≤ n) :
    Stops n rest := by
  intro t ht
  obtain ⟨hparen, hbracket, hconnective⟩ := h t ht
  exact ⟨hparen, hbracket, fun c hc => Nat.lt_of_lt_of_le (hconnective c hc) hle⟩

/-- A connective stops what is tighter. -/
theorem stops_connective {t : Token} {c : Connective} {rest : List Token} (h : t.kind = c.kind) :
    Stops (c.tightness + 1) (t :: rest) := by
  rintro t' ⟨⟩
  rw [h, c.ofKind?_kind]
  -- Neither bracket is a connective, so `ofKind?` would have to be `none` there.
  refine ⟨?_, ?_, ?_⟩
  · intro heq
    have hread := c.ofKind?_kind
    rw [heq] at hread
    exact nomatch hread
  · intro heq
    have hread := c.ofKind?_kind
    rw [heq] at hread
    exact nomatch hread
  · rintro c' ⟨⟩
    exact Nat.lt_succ_self _

/-- The kinds of token that stand behind a whole expression. -/
def Kind.endsExpression : Kind → Bool
  | .rParen | .rBracket | .comma | .semi => true
  | _ => false

/-- What ends an expression does not join it with another one. -/
theorem Kind.ofKind?_of_endsExpression {kind : Kind} (h : kind.endsExpression = true) :
    Connective.ofKind? kind = none := by
  cases kind <;> first | rfl | exact nomatch h

/-- In front of `rest` is a token that ends every expression. -/
def Ends (rest : List Token) : Prop := ∃ t rest', rest = t :: rest' ∧ t.kind.endsExpression = true

/-- A token that ends expressions ends them whatever comes behind it. -/
theorem ends_cons {t : Token} {rest : List Token} (h : t.kind.endsExpression = true) :
    Ends (t :: rest) := ⟨t, rest, rfl, h⟩

/-- What ends every expression goes on with none. -/
theorem Ends.stops {rest : List Token} (h : Ends rest) (n : Nat) : Stops n rest := by
  obtain ⟨t, rest', rfl, hends⟩ := h
  rintro t' ⟨⟩
  -- A kind that ends expressions is neither of the opening brackets and no connective.
  refine ⟨?_, ?_, ?_⟩
  · intro heq
    rw [heq] at hends
    exact nomatch hends
  · intro heq
    rw [heq] at hends
    exact nomatch hends
  · intro c hc
    rw [Kind.ofKind?_of_endsExpression hends] at hc
    exact nomatch hc

/-- In front of further arguments is a comma, or what is behind all of them. -/
theorem ends_slotsBehind {args : List Expr} {tokens rest : List Token}
    (h : Spells (Expr.slotsBehind args) tokens) (hends : Ends rest) : Ends (tokens ++ rest) := by
  cases args with
  | nil =>
    obtain rfl := h.eq_nil
    exact hends
  | cons e args =>
    obtain ⟨t, _, rfl, hfirst, -⟩ := h.exists_cons
    exact ends_cons (by rw [hfirst.kind_eq]; rfl)

/-- An equals sign goes on with no chain. -/
theorem stops_eq {t : Token} {rest : List Token} (h : t.kind = .eq) (n : Nat) :
    Stops n (t :: rest) := by
  rintro t' ⟨⟩
  rw [h]
  refine ⟨by decide, by decide, ?_⟩
  intro c hc
  cases hc

namespace Grammar

open Step Treewalk.Expr

/-! ### Where the loops end -/

/-- Where a postfix form cannot go on, the callee read so far is the whole of it. -/
theorem callMore_stops {n : Nat} {rest : List Token} (callee : Expr) (h : Stops n rest) :
    (callMore callee rest).Yields callee rest := by
  cases rest with
  | nil =>
    rw [callMore]
    exact yields_pure callee []
  | cons t rest =>
    obtain ⟨hparen, hbracket, -⟩ := h t rfl
    rw [callMore, if_neg hparen, if_neg hbracket]
    exact yields_pure callee (t :: rest)

/-- Where no connective of the level follows, the operands read so far are the whole chain. -/
theorem chainMore_stops {l : Level} {rest : List Token} (left : Expr)
    (h : Stops l.tightness rest) : (chainMore l left rest).Yields left rest := by
  cases rest with
  | nil =>
    rw [chainMore]
    exact yields_pure left []
  | cons t rest =>
    obtain ⟨-, -, hconnective⟩ := h t rfl
    rw [chainMore]
    split
    · next c hc =>
      -- A connective of this very level would be tighter than itself.
      obtain ⟨hkind, hlevel⟩ := Option.filter_eq_some_iff.1 hc
      have hlt := hconnective c hkind
      rw [Connective.tightness, of_decide_eq_true hlevel] at hlt
      exact absurd hlt (Nat.lt_irrefl _)
    · exact yields_pure left (t :: rest)

/-- A chain goes on with a connective of its level and an operand. -/
theorem chainMore_connective {l : Level} {left right w : Expr} {t : Token} {c : Connective}
    {rest rest' rest'' : List Token} (hc : Connective.atLevel? l t.kind = some c)
    (hoperand : (operand l rest).Yields right rest')
    (hmore : (chainMore l (c.join left right t.span) rest').Yields w rest'') :
    (chainMore l left (t :: rest)).Yields w rest'' := by
  rw [chainMore]
  split
  · next c' hc' =>
    obtain rfl := Option.some.inj (hc.symm.trans hc')
    exact yields_maybe (yields_behind t (yields_bind hoperand fun _ => hmore))
  · next hnone =>
    rw [hc] at hnone
    cases hnone

/-- Where an expression ends, what was read is no target of an assignment. -/
theorem assignment_stops {rest : List Token} (target : Expr) (h : Ends rest) :
    (assignment target rest).Yields target rest := by
  obtain ⟨t, rest', rfl, hends⟩ := h
  have hequals : t.kind ≠ .eq := by
    intro heq
    rw [heq] at hends
    exact nomatch hends
  rw [assignment, if_neg hequals]
  exact yields_pure target (t :: rest')

/-! ### Expressions -/

-- By recursion on the tree. Each production down the grammar passes on the same tree until one
-- takes it apart; the second number counts these.
mutual

/-- A normal primary expression is read back from the tokens that spell it. -/
theorem primary_yields {e : Expr} (hn : e.Normal) (htight : primaryTightness ≤ e.tightness)
    {tokens : List Token} (h : Spells e.slots tokens) (rest : List Token) :
    (primary (tokens ++ rest)).Yields e rest := by
  cases hn with
  -- The four primary forms are told apart by their first token; what is inside of brackets is
  -- smaller, and is read by `expression_yields` and `arguments_yields`.
  | literal value =>
    obtain ⟨t, _, rfl, hfirst, hnil⟩ := h.exists_cons
    obtain rfl := hnil.eq_nil
    have hvalue := literal?_of_symbol (TokenSlot.admits_open.1 hfirst)
    rw [List.cons_append, List.nil_append, primary]
    simp only [hvalue]
    exact yields_behind t (yields_pure (Expr.literal value) rest)
  | name token =>
    obtain ⟨t, _, rfl, hfirst, hnil⟩ := h.exists_cons
    obtain rfl := hnil.eq_nil
    obtain ⟨rfl, hkind⟩ := TokenSlot.admits_ofName.1 hfirst
    have hvalue : literal? t = none := by rw [literal?, hkind]
    rw [List.cons_append, List.nil_append, primary]
    simp only [hvalue, hkind]
    exact yields_behind t (yields_pure (Expr.name t) rest)
  | @group inner hinner =>
    obtain ⟨t, ti, closing, rfl, hfirst, hspells, hclosing⟩ := h.exists_enclosed
    have hkind := hfirst.kind_eq
    have hkind' := hclosing.kind_eq
    have hvalue : literal? t = none := by rw [literal?, hkind]
    have hends : Ends (closing :: rest) := ends_cons (by rw [hkind']; rfl)
    rw [List.cons_append, List.append_assoc, primary]
    simp only [hvalue, hkind]
    apply yields_once
    apply yields_behind t
    apply yields_bind (expression_yields hinner hspells hends)
    intro fits
    exact yields_map (fun _ => Expr.group inner) (yields_expect .parenAfterExpression rest hkind')
  | @array elements helements =>
    obtain ⟨t, ti, closing, rfl, hfirst, hspells, hclosing⟩ := h.exists_enclosed
    have hkind := hfirst.kind_eq
    have hkind' := hclosing.kind_eq
    have hvalue : literal? t = none := by rw [literal?, hkind]
    rw [List.cons_append, List.append_assoc, primary]
    simp only [hvalue, hkind]
    apply yields_once
    apply yields_behind t
    apply yields_bind (arguments_yields helements hspells rest hkind' (.inr rfl))
    intro fits
    exact yields_map (fun _ => Expr.array elements)
      (yields_expect .bracketAfterElements rest hkind')
  -- No other form is as tight as a primary one.
  | @binary op =>
    have hle := (Connective.binary op).tightness_le
    simp only [tightness, primaryTightness] at htight
    omega
  | @logical op =>
    have hle := (Connective.logical op).tightness_le
    simp only [tightness, primaryTightness] at htight
    omega
  | _ =>
    simp only [tightness, unaryTightness, callTightness, primaryTightness] at htight
    omega
termination_by (sizeOf e, 1)

/-- A call reads its callee and then goes on as behind it. -/
theorem call_goes_on {e : Expr} (hn : e.Normal) (htight : callTightness ≤ e.tightness)
    {tokens : List Token} (h : Spells e.slots tokens) {w : Expr} {rest rest' : List Token}
    (hmore : (callMore e rest).Yields w rest') : (call (tokens ++ rest)).Yields w rest' := by
  by_cases hprimary : primaryTightness ≤ e.tightness
  · rw [call]
    exact yields_bind (primary_yields hn hprimary h rest) fun _ => hmore
  cases hn with
  | @call callee args paren hcallee hcalleeTight hargs =>
    obtain ⟨tc, _, rfl, hspells, hothers⟩ := h.exists_append
    obtain ⟨t, ta, closing, rfl, hfirst, hspellsArgs, hclosing⟩ := hothers.exists_enclosed
    obtain ⟨rfl, hsymbol⟩ := TokenSlot.admits_kept.1 hclosing
    have hkind := hfirst.kind_eq
    have hkind' := Token.kind_of_symbol hsymbol
    -- The callee is read first, and the arguments behind it are what the call goes on with.
    rw [List.append_assoc]
    apply call_goes_on hcallee hcalleeTight hspells
    rw [List.cons_append, List.append_assoc, callMore, if_pos hkind]
    apply yields_maybe
    apply yields_behind t
    apply yields_bind (arguments_yields hargs hspellsArgs rest hkind' (.inl rfl))
    intro fits
    exact yields_bind (yields_expect .parenAfterArguments rest hkind') fun fits' => hmore
  | @index object position bracket hobject hobjectTight hposition =>
    obtain ⟨tc, _, rfl, hspells, hothers⟩ := h.exists_append
    obtain ⟨t, tp, closing, rfl, hfirst, hspellsPosition, hclosing⟩ := hothers.exists_enclosed
    obtain ⟨rfl, hsymbol⟩ := TokenSlot.admits_kept.1 hclosing
    have hkind := hfirst.kind_eq
    have hkind' := Token.kind_of_symbol hsymbol
    have hparen : t.kind ≠ .lParen := by simp [hkind]
    have hends : Ends (closing :: rest) := ends_cons (by rw [hkind']; rfl)
    rw [List.append_assoc]
    apply call_goes_on hobject hobjectTight hspells
    rw [List.cons_append, List.append_assoc, callMore, if_neg hparen, if_pos hkind]
    apply yields_maybe
    apply yields_behind t
    apply yields_bind (expression_yields hposition hspellsPosition hends)
    intro fits
    exact yields_bind (yields_expect .bracketAfterIndex rest hkind') fun fits' => hmore
  | @binary op =>
    have hle := (Connective.binary op).tightness_le
    simp only [tightness, callTightness] at htight
    omega
  | @logical op =>
    have hle := (Connective.logical op).tightness_le
    simp only [tightness, callTightness] at htight
    omega
  | _ =>
    simp only [tightness, unaryTightness, callTightness, primaryTightness] at htight hprimary
    omega
termination_by (sizeOf e, 2)

/-- A normal expression as tight as a unary one is read back where nothing binds tighter. -/
theorem unary_yields {e : Expr} (hn : e.Normal) (htight : unaryTightness ≤ e.tightness)
    {tokens : List Token} (h : Spells e.slots tokens) {rest : List Token}
    (hstops : Stops unaryTightness rest) : (unary (tokens ++ rest)).Yields e rest := by
  by_cases hcall : callTightness ≤ e.tightness
  · obtain ⟨slot, slots, hslots, hstart⟩ := hn.exists_tight_head hcall
    have hcalled := call_goes_on hn hcall h (callMore_stops e hstops)
    rw [hslots] at h
    obtain ⟨t, others, rfl, hfirst, -⟩ := h.exists_cons
    -- No call starts with an operator, so nothing is read in front of it.
    have hop : unaryOp? t.kind = none := by
      cases hunary : unaryOp? t.kind with
      | none => rfl
      | some op =>
        have hkind : op.kind.isFixed = true := by cases op <;> rfl
        have hsymbol := (Token.symbol_eq_fixed_iff hkind).2 (kind_of_unaryOp? hunary).symm
        rw [← hfirst.1, hsymbol] at hstart
        cases op <;> exact nomatch hstart
    rw [List.cons_append] at hcalled ⊢
    rw [unary]
    simp only [hop]
    exact hcalled
  cases hn with
  | @unary op operand span hoperand hoperandTight =>
    obtain ⟨t, others, rfl, hfirst, hspells⟩ := h.exists_cons
    obtain ⟨hsymbol, rfl⟩ := TokenSlot.admits_placed.1 hfirst
    have hop : unaryOp? t.kind = some op := by
      rw [Token.kind_of_symbol hsymbol, unaryOp?_kind]
    rw [List.cons_append, unary]
    simp only [hop]
    have hread := unary_yields hoperand hoperandTight hspells hstops
    apply yields_once
    apply yields_behind t
    exact yields_map (fun inner => Expr.unary op inner t.span) hread
  | @binary op =>
    have hle := (Connective.binary op).tightness_le
    simp only [tightness, unaryTightness] at htight
    omega
  | @logical op =>
    have hle := (Connective.logical op).tightness_le
    simp only [tightness, unaryTightness] at htight
    omega
  | _ =>
    simp only [tightness, unaryTightness, callTightness, primaryTightness] at htight hcall
    omega
termination_by (sizeOf e, 3)

/-- A chain reads a left side of its level or tighter and then goes on as behind it. -/
theorem chain_goes_on (l : Level) {e : Expr} (hn : e.Normal) (htight : l.tightness ≤ e.tightness)
    {tokens : List Token} (h : Spells e.slots tokens) {w : Expr} {rest rest' : List Token}
    (hstops : Stops (l.tightness + 1) rest) (hmore : (chainMore l e rest).Yields w rest') :
    (chain l (tokens ++ rest)).Yields w rest' := by
  by_cases hlevel : e.tightness = l.tightness
  · -- The outermost connective is of this level: its left side is read by the same chain.
    obtain ⟨c, left, right, span, rfl, rfl, hleft, hright, hleftTight, hrightTight, hsize,
      hsize'⟩ :=
      hn.exists_join hlevel
    rw [Connective.slots_join] at h
    obtain ⟨tl, _, rfl, hspellsLeft, hothers⟩ := h.exists_append
    obtain ⟨t, tr, rfl, hfirst, hspellsRight⟩ := hothers.exists_cons
    obtain ⟨hkind, hjoin⟩ := Connective.of_slot_admits hfirst
    have hconnective : Connective.atLevel? c.level t.kind = some c := by
      rw [hkind, Connective.atLevel?_kind]
    have hoperand := operand_yields c.level hright hrightTight hspellsRight hstops
    rw [List.append_assoc, List.cons_append]
    apply chain_goes_on c.level hleft hleftTight hspellsLeft (stops_connective hkind)
    apply chainMore_connective hconnective hoperand
    rw [hjoin]
    exact hmore
  · -- It is tighter, so that it is one operand, and the chain has to go on with something.
    have htighter : l.tightness < e.tightness := Nat.lt_of_le_of_ne htight (Ne.symm hlevel)
    rw [chain]
    exact yields_bind (operand_yields l hn htighter h hstops) fun _ => hmore
termination_by (sizeOf e, 2 * l.depth + 6)

/-- A normal expression tighter than a level is read back as an operand of that level. -/
theorem operand_yields (l : Level) {e : Expr} (hn : e.Normal) (htight : l.tightness < e.tightness)
    {tokens : List Token} (h : Spells e.slots tokens) {rest : List Token}
    (hstops : Stops (l.tightness + 1) rest) : (operand l (tokens ++ rest)).Yields e rest := by
  rw [operand]
  split
  · -- An operand of this level is a chain of the next one that stops after its first operand.
    next tighter htighter =>
    have hdepth := Level.depth_of_tighter? htighter
    have hnext := Level.tightness_of_tighter? htighter
    rw [← hnext] at hstops
    exact chain_goes_on tighter hn (by omega) h (hstops.mono (Nat.le_succ _))
      (chainMore_stops e hstops)
  · next hnone =>
    have hlast := Level.tightness_of_tighter?_eq_none hnone
    rw [hlast] at hstops htight
    exact unary_yields hn htight h hstops
termination_by (sizeOf e, 2 * l.depth + 5)

/-- A normal expression is read back from its tokens in front of what ends an expression. -/
theorem expression_yields {e : Expr} (hn : e.Normal) {tokens : List Token}
    (h : Spells e.slots tokens) {rest : List Token} (hends : Ends rest) :
    (expression (tokens ++ rest)).Yields e rest := by
  by_cases hjoined : 1 ≤ e.tightness
  · have hread := chain_goes_on .or hn hjoined h (hends.stops _) (chainMore_stops e (hends.stops _))
    rw [expression]
    exact yields_bind hread fun _ => assignment_stops e hends
  cases hn with
  | @assign token value hvalue =>
    have hsize : 1 + sizeOf token < sizeOf (Expr.assign token value) := by
      have hpos := value.sizeOf_pos
      rw [Expr.assign.sizeOf_spec]
      omega
    obtain ⟨t, _, rfl, hfirst, hothers⟩ := h.exists_cons
    obtain ⟨equals, tv, rfl, hequals, hspells⟩ := hothers.exists_cons
    have heq := hequals.kind_eq
    have htarget : Spells (Expr.name token).slots [t] := .cons hfirst .nil
    have hstops (n : Nat) : Stops n (equals :: (tv ++ rest)) := stops_eq heq n
    have hread := chain_goes_on .or (.name token) (Nat.le_add_left 1 9) htarget (hstops _)
      (chainMore_stops (Expr.name token) (hstops _))
    rw [List.cons_append, List.cons_append, expression]
    -- The left side is read as an expression of its own and only then turns out to be a target.
    apply yields_bind hread
    intro fits
    rw [assignment, if_pos heq, assignTo]
    apply yields_maybe
    apply yields_map (Expr.assign token)
    apply yields_behind equals
    exact expression_yields hvalue hspells hends
  | @indexAssign object position value bracket hobject htight hposition hvalue =>
    have hsize : 1 + sizeOf object + sizeOf position + sizeOf bracket <
        sizeOf (Expr.indexAssign object position value bracket) := by
      have hpos := value.sizeOf_pos
      rw [Expr.indexAssign.sizeOf_spec]
      omega
    obtain ⟨ti, _, rfl, hspellsObject, hothers⟩ := h.exists_append
    obtain ⟨t, _, rfl, hfirst, hothers⟩ := hothers.exists_cons
    obtain ⟨tp, _, rfl, hspellsPosition, hothers⟩ := hothers.exists_append
    obtain ⟨closing, _, rfl, hclosing, hothers⟩ := hothers.exists_cons
    obtain ⟨equals, tv, rfl, hequals, hspells⟩ := hothers.exists_cons
    have heq := hequals.kind_eq
    have htarget : Spells (Expr.index object position bracket).slots
        (ti ++ t :: (tp ++ [closing])) :=
      hspellsObject.append (.cons hfirst (hspellsPosition.append (.cons hclosing .nil)))
    have hstops (n : Nat) : Stops n (equals :: (tv ++ rest)) := stops_eq heq n
    have hread := chain_goes_on .or (.index hobject htight hposition) (Nat.le_add_left 1 8) htarget
      (hstops _) (chainMore_stops (Expr.index object position bracket) (hstops _))
    have hshape : ti ++ t :: (tp ++ closing :: equals :: tv) ++ rest =
        ti ++ t :: (tp ++ [closing]) ++ equals :: (tv ++ rest) := by
      simp
    rw [hshape, expression]
    apply yields_bind hread
    intro fits
    rw [assignment, if_pos heq, assignTo]
    apply yields_maybe
    apply yields_map (fun v => Expr.indexAssign object position v bracket)
    apply yields_behind equals
    exact expression_yields hvalue hspells hends
  | @binary op => exact absurd (Connective.binary op).level.tightness_pos hjoined
  | @logical op => exact absurd (Connective.logical op).level.tightness_pos hjoined
  | _ =>
    simp only [tightness, unaryTightness, callTightness, primaryTightness] at hjoined
    omega
termination_by (sizeOf e, 2 * Level.or.depth + 7)

/-- Arguments are read up to the token behind them. -/
theorem arguments_yields {args : List Expr} (hn : ∀ e ∈ args, e.Normal) {tokens : List Token}
    (h : Spells (Expr.slotsOf args) tokens) {closing : Token} (rest : List Token) {close : Kind}
    (hkind : closing.kind = close) (hclose : close = .rParen ∨ close = .rBracket) :
    (arguments close (tokens ++ closing :: rest)).Yields args (closing :: rest) := by
  cases args with
  | nil =>
    obtain rfl := h.eq_nil
    have hstarts : starts close (closing :: rest) = true := beq_iff_eq.2 hkind
    rw [List.nil_append, arguments, if_pos hstarts]
    exact yields_pure [] (closing :: rest)
  | cons e args =>
    obtain ⟨te, ta, rfl, hspells, hothers⟩ := h.exists_append
    obtain ⟨t, te', hte, hstart⟩ := hspells.exists_head
    -- No expression starts with a closing token, so the arguments do not end here.
    have hstarts : starts close (te ++ ta ++ closing :: rest) = false := by
      have hne : t.kind ≠ close := by
        obtain rfl | rfl := hclose
        · exact Token.kind_ne_of_symbol hstart rfl rfl
        · exact Token.kind_ne_of_symbol hstart rfl rfl
      rw [hte]
      exact beq_eq_false_iff_ne.2 hne
    have hends : Ends (closing :: rest) := by
      obtain rfl | rfl := hclose
      · exact ends_cons (by rw [hkind]; rfl)
      · exact ends_cons (by rw [hkind]; rfl)
    have hne : closing.kind ≠ .comma := by
      obtain rfl | rfl := hclose
      · simp [hkind]
      · simp [hkind]
    rw [arguments, if_neg (ne_true_of_eq_false hstarts), List.append_assoc]
    have hread := expression_yields (hn e List.mem_cons_self) hspells
      (ends_slotsBehind hothers hends)
    have hmore := argumentsMore_yields (fun e he => hn e (List.mem_cons_of_mem _ he)) hothers rest
      hends hne
    apply yields_maybe
    apply yields_bind hread
    intro fits
    exact yields_map (e :: ·) hmore
termination_by (sizeOf args, 0)

/-- Further arguments are read up to the token behind them. -/
theorem argumentsMore_yields {args : List Expr} (hn : ∀ e ∈ args, e.Normal) {tokens : List Token}
    (h : Spells (Expr.slotsBehind args) tokens) {closing : Token} (rest : List Token)
    (hends : Ends (closing :: rest)) (hne : closing.kind ≠ .comma) :
    (argumentsMore (tokens ++ closing :: rest)).Yields args (closing :: rest) := by
  cases args with
  | nil =>
    obtain rfl := h.eq_nil
    rw [List.nil_append, argumentsMore, if_neg hne]
    exact yields_pure [] (closing :: rest)
  | cons e args =>
    obtain ⟨t, _, rfl, hfirst, hothers⟩ := h.exists_cons
    obtain ⟨te, ta, rfl, hspells, hothers⟩ := hothers.exists_append
    have hcomma := hfirst.kind_eq
    rw [List.cons_append, List.append_assoc, argumentsMore, if_pos hcomma]
    -- The first argument ends at a comma or at the closing bracket, and both end expressions.
    have hread := expression_yields (hn e List.mem_cons_self) hspells
      (ends_slotsBehind hothers hends)
    have hmore := argumentsMore_yields (fun e he => hn e (List.mem_cons_of_mem _ he)) hothers rest
      hends hne
    apply yields_maybe
    apply yields_behind t
    apply yields_bind hread
    intro fits
    exact yields_map (e :: ·) hmore
termination_by (sizeOf args, 0)

end

end Grammar

end Treewalk
