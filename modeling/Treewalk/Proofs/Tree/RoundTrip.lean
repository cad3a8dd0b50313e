import Treewalk.Proofs.Tree.Numbers
import Treewalk.Tree.Dump.Read

/-!
# Dumps read back

Reading the dump of a program gives the program back, with all its tokens, literals and places, if
all its numbers can be written. A number that cannot be written is dumped as what is left out, and
no such dump is read (`Program.ofDump?_dump`). So nothing that is read from a dump of a program is
another program.
-/

namespace Treewalk

/-! ## Leaves -/

namespace Dump

/-- A number is read if it has been written. -/
@[simp] theorem number?_ofFloat {x y : Float} :
    (ofFloat x).number? = some y ↔ Number.IsFinite x ∧ x = y := by
  unfold ofFloat Number.IsFinite
  cases hx : Number.shape x <;> simp [number?]

/-- A dump of null is read as nothing. -/
@[simp] theorem optional?_null {α : Type} (read : Dump → Option α) :
    optional? read null = some none := rfl

/-- A part that is there has to be read. -/
theorem optional?_of_ne_null {α : Type} {d : Dump} (h : d ≠ null) (read : Dump → Option α) :
    optional? read d = (read d).map some := by
  unfold optional?
  split
  · exact absurd rfl h
  · rfl

end Dump

/-- Spans are read back. -/
@[simp] theorem Span.ofDump?_dump (s : Span) : Span.ofDump? s.dump = some s := rfl

/-- Kinds are read back by their names. -/
@[simp] theorem Kind.named?_name (kind : Kind) :
    Dump.named? all name (.text kind.name) = some kind := by
  cases kind <;> rfl

/-- Unary operators are read back by their names. -/
@[simp] theorem UnaryOp.named?_name (op : UnaryOp) :
    Dump.named? all name (.text op.name) = some op := by
  cases op <;> rfl

/-- Binary operators are read back by their names. -/
@[simp] theorem BinaryOp.named?_name (op : BinaryOp) :
    Dump.named? all name (.text op.name) = some op := by
  cases op <;> rfl

/-- Logical operators are read back by their names. -/
@[simp] theorem LogicalOp.named?_name (op : LogicalOp) :
    Dump.named? all name (.text op.name) = some op := by
  cases op <;> rfl

/-- The kinds of read statements are read back by their names. -/
@[simp] theorem ReadKind.named?_name (kind : ReadKind) :
    Dump.named? all name (.text kind.name) = some kind := by
  cases kind <;> rfl

/-- A literal is read back just if its number is finite. -/
theorem Literal.ofDump?_dump {value value' : Literal} :
    Literal.ofDump? value.dump = some value' ↔ AllFinite value.numbers ∧ value = value' := by
  cases value with
  | null => simp [dump, ofDump?, numbers]
  | bool value =>
    change some (bool value) = _ ↔ _
    simp [numbers]
  -- A number that is not finite is dumped as null, which is read as no number.
  | number value =>
    change (Dump.ofFloat value).number?.map number = _ ↔ _
    simp [numbers]
  | string text =>
    change some (string text) = _ ↔ _
    simp [numbers]

/-- The literal of a token is not dumped as null, so it is told from a missing one. -/
theorem TokenLiteral.dump_ne_null (literal : TokenLiteral) : literal.dump ≠ .null := by
  cases literal <;> exact Dump.noConfusion

/-- The literal of a token is read back just if its number is finite. -/
theorem TokenLiteral.ofDump?_dump {literal literal' : TokenLiteral} :
    TokenLiteral.ofDump? literal.dump = some literal' ↔
      AllFinite literal.numbers ∧ literal = literal' := by
  cases literal with
  | number value =>
    change (Dump.ofFloat value).number?.map number = _ ↔ _
    simp [numbers]
  | string text =>
    change some (string text) = _ ↔ _
    simp [numbers]

/-- A token is read back just if the number in it is finite. -/
theorem Token.ofDump?_dump {t t' : Token} :
    Token.ofDump? t.dump = some t' ↔ AllFinite t.numbers ∧ t = t' := by
  obtain ⟨kind, lexeme, literal, line, span⟩ := t
  change (do
    return Token.mk (← Dump.named? Kind.all Kind.name (.text kind.name)) lexeme
      (← Dump.optional? TokenLiteral.ofDump? (.ofOption (literal.map TokenLiteral.dump))) line
      (← Span.ofDump? span.dump)) = _ ↔ _
  cases literal with
  | none => simp [Dump.ofOption, numbers]
  | some literal =>
    simp [Dump.ofOption, Dump.optional?_of_ne_null literal.dump_ne_null, TokenLiteral.ofDump?_dump,
      numbers, Option.bind_eq_some_iff]

/-- Tokens are read back just if the numbers in them are finite. -/
theorem Token.mapM_ofDump?_map_dump {ts ts' : List Token} :
    (ts.map dump).mapM ofDump? = some ts' ↔ AllFinite (ts.flatMap numbers) ∧ ts = ts' := by
  induction ts generalizing ts' with
  | nil => simp
  | cons t ts ih =>
    rw [List.map_cons, List.mapM_cons, List.flatMap_cons]
    simp [-List.mapM_map, Option.bind_eq_some_iff, ofDump?_dump, ih, and_assoc]

/-! ## Expressions -/

mutual

/-- An expression is read from its dump part by part, so it is read if all of its parts are. -/
theorem Expr.ofDump?_dump (e e' : Expr) :
    Expr.ofDump? e.dump = some e' ↔ AllFinite e.numbers ∧ e = e' := by
  -- Tag and field names are found by evaluation: each `change` says what is left to do then, which
  -- is to read the fields of the constructor one after the other.
  cases e with
  | literal value =>
    rw [dump, ofDump?]
    change (do return Expr.literal (← Literal.ofDump? value.dump)) = _ ↔ _
    simp [Option.bind_eq_some_iff, Literal.ofDump?_dump, numbers, and_assoc]
  | group inner =>
    rw [dump, ofDump?]
    change (do return Expr.group (← ofDump? inner.dump)) = _ ↔ _
    simp [Option.bind_eq_some_iff, ofDump?_dump inner, numbers, and_assoc]
  | unary op operand span =>
    rw [dump, ofDump?]
    change (do
      return Expr.unary (← Dump.named? UnaryOp.all UnaryOp.name (.text op.name))
        (← ofDump? operand.dump)
        (← Span.ofDump? span.dump)) = _ ↔ _
    simp [Option.bind_eq_some_iff, ofDump?_dump operand, numbers, and_assoc]
  | binary op left right span =>
    rw [dump, ofDump?]
    change (do
      return Expr.binary (← Dump.named? BinaryOp.all BinaryOp.name (.text op.name))
        (← ofDump? left.dump)
        (← ofDump? right.dump) (← Span.ofDump? span.dump)) = _ ↔ _
    simp [Option.bind_eq_some_iff, ofDump?_dump left, ofDump?_dump right, numbers, and_assoc]
  | logical op left right =>
    rw [dump, ofDump?]
    change (do
      return Expr.logical (← Dump.named? LogicalOp.all LogicalOp.name (.text op.name))
        (← ofDump? left.dump)
        (← ofDump? right.dump)) = _ ↔ _
    simp [Option.bind_eq_some_iff, ofDump?_dump left, ofDump?_dump right, numbers, and_assoc]
  | assign token value =>
    rw [dump, ofDump?]
    change (do return Expr.assign (← Token.ofDump? token.dump) (← ofDump? value.dump)) = _ ↔ _
    simp [Option.bind_eq_some_iff, Token.ofDump?_dump, ofDump?_dump value, numbers, and_assoc]
  | name token =>
    rw [dump, ofDump?]
    change (do return Expr.name (← Token.ofDump? token.dump)) = _ ↔ _
    simp [Option.bind_eq_some_iff, Token.ofDump?_dump, numbers, and_assoc]
  | call callee args paren =>
    rw [dump, ofDump?]
    change (do
      return Expr.call (← ofDump? callee.dump) (← ofDumps? (dumps args))
        (← Token.ofDump? paren.dump)) = _ ↔ _
    simp [Option.bind_eq_some_iff, ofDump?_dump callee, ofDumps?_dumps args, Token.ofDump?_dump,
      numbers, and_assoc]
  | array elements =>
    rw [dump, ofDump?]
    change (do return Expr.array (← ofDumps? (dumps elements))) = _ ↔ _
    simp [Option.bind_eq_some_iff, ofDumps?_dumps elements, numbers, and_assoc]
  | index object position bracket =>
    rw [dump, ofDump?]
    change (do
      return Expr.index (← ofDump? object.dump) (← ofDump? position.dump)
        (← Token.ofDump? bracket.dump)) = _ ↔ _
    simp [Option.bind_eq_some_iff, ofDump?_dump object, ofDump?_dump position, Token.ofDump?_dump,
      numbers, and_assoc]
  | indexAssign object position value bracket =>
    rw [dump, ofDump?]
    change (do
      return Expr.indexAssign (← ofDump? object.dump) (← ofDump? position.dump)
        (← ofDump? value.dump)
        (← Token.ofDump? bracket.dump)) = _ ↔ _
    simp [Option.bind_eq_some_iff, ofDump?_dump object, ofDump?_dump position, ofDump?_dump value,
      Token.ofDump?_dump, numbers, and_assoc]
termination_by structural e

/-- Expressions are read back just if the numbers in them are finite. -/
theorem Expr.ofDumps?_dumps (es es' : List Expr) :
    Expr.ofDumps? (Expr.dumps es) = some es' ↔ AllFinite (Expr.numbersOf es) ∧ es = es' := by
  cases es with
  | nil =>
    rw [dumps, ofDumps?]
    simp [numbersOf]
  | cons e rest =>
    rw [dumps, ofDumps?]
    simp [Option.bind_eq_some_iff, ofDump?_dump e, ofDumps?_dumps rest, numbersOf, and_assoc]
termination_by structural es

end

/-- No expression is dumped as null, so it is told from a missing one. -/
theorem Expr.dump_ne_null (e : Expr) : e.dump ≠ .null := by
  cases e <;> exact Dump.noConfusion

/-- An expression that may be missing is read back just if the numbers in it are finite. -/
theorem Expr.optional?_dump? {e? e?' : Option Expr} :
    Dump.optional? Expr.ofDump? (Expr.dump? e?) = some e?' ↔
      AllFinite (Expr.numbers? e?) ∧ e? = e?' := by
  cases e? with
  | none => simp [dump?, Dump.ofOption, numbers?]
  | some e =>
    simp [dump?, Dump.ofOption, Dump.optional?_of_ne_null e.dump_ne_null, ofDump?_dump, numbers?]

/-! ## Statements -/

/-- No statement is dumped as null. -/
theorem Stmt.isNull_dump (s : Stmt) : s.dump.isNull = false := by
  cases s <;> rfl

mutual

/-- A statement is read from its dump part by part, so it is read if all of its parts are. -/
theorem Stmt.ofDump?_dump (s s' : Stmt) :
    Stmt.ofDump? s.dump = some s' ↔ AllFinite s.numbers ∧ s = s' := by
  cases s with
  | expression value =>
    rw [dump, ofDump?]
    change (do return Stmt.expression (← Expr.ofDump? value.dump)) = _ ↔ _
    simp [Option.bind_eq_some_iff, Expr.ofDump?_dump, numbers]
  | print keyword value =>
    rw [dump, ofDump?]
    change (do return Stmt.print (← Token.ofDump? keyword.dump) (← Expr.ofDump? value.dump)) = _ ↔ _
    simp [Option.bind_eq_some_iff, Token.ofDump?_dump, Expr.ofDump?_dump, numbers, and_assoc]
  | declare name init =>
    rw [dump, ofDump?]
    change (do
      return Stmt.declare (← Token.ofDump? name.dump)
        (← Dump.optional? Expr.ofDump? (Expr.dump? init))) = _ ↔ _
    simp [Option.bind_eq_some_iff, Token.ofDump?_dump, Expr.optional?_dump?, numbers, and_assoc]
  | block body =>
    rw [dump, ofDump?]
    change (do return Stmt.block (← ofDumps? (dumps body))) = _ ↔ _
    simp [Option.bind_eq_some_iff, ofDumps?_dumps body, numbers]
  | ifThen condition consequent =>
    rw [dump, ofDump?]
    change (do
      return Stmt.ifThen (← Expr.ofDump? condition.dump) (← ofDump? consequent.dump)) = _ ↔ _
    simp [Option.bind_eq_some_iff, Expr.ofDump?_dump, ofDump?_dump consequent, numbers, and_assoc]
  -- Both forms of a condition are dumped alike, and a missing alternative is null, which no
  -- statement is.
  | ifThenElse condition consequent alternative =>
    rw [dump, ofDump?]
    change (do
      let condition ← Expr.ofDump? condition.dump
      let consequent ← ofDump? consequent.dump
      if alternative.dump.isNull then return Stmt.ifThen condition consequent
      else return Stmt.ifThenElse condition consequent (← ofDump? alternative.dump)) = _ ↔ _
    simp [Option.bind_eq_some_iff, Expr.ofDump?_dump, ofDump?_dump consequent,
      ofDump?_dump alternative, isNull_dump, numbers, and_assoc]
  | loop condition body =>
    rw [dump, ofDump?]
    change (do return Stmt.loop (← Expr.ofDump? condition.dump) (← ofDump? body.dump)) = _ ↔ _
    simp [Option.bind_eq_some_iff, Expr.ofDump?_dump, ofDump?_dump body, numbers, and_assoc]
  | function name params body =>
    rw [dump, ofDump?]
    change (do
      return Stmt.function (← Token.ofDump? name.dump)
        (← (params.map Token.dump).mapM Token.ofDump?)
        (← ofDumps? (dumps body))) = _ ↔ _
    simp [-List.mapM_map, Option.bind_eq_some_iff, Token.ofDump?_dump, Token.mapM_ofDump?_map_dump,
      ofDumps?_dumps body, numbers, and_assoc]
  | result keyword value =>
    rw [dump, ofDump?]
    change (do
      return Stmt.result (← Token.ofDump? keyword.dump)
        (← Dump.optional? Expr.ofDump? (Expr.dump? value))) = _ ↔ _
    simp [Option.bind_eq_some_iff, Token.ofDump?_dump, Expr.optional?_dump?, numbers, and_assoc]
  | read kind keyword target =>
    rw [dump, ofDump?]
    change (do
      return Stmt.read (← Dump.named? ReadKind.all ReadKind.name (.text kind.name))
        (← Token.ofDump? keyword.dump)
        (← Expr.ofDump? target.dump)) = _ ↔ _
    simp [Option.bind_eq_some_iff, Token.ofDump?_dump, Expr.ofDump?_dump, numbers, and_assoc]
termination_by structural s

/-- Statements are read back just if the numbers in them are finite. -/
theorem Stmt.ofDumps?_dumps (ss ss' : List Stmt) :
    Stmt.ofDumps? (Stmt.dumps ss) = some ss' ↔ AllFinite (Stmt.numbersOf ss) ∧ ss = ss' := by
  cases ss with
  | nil =>
    rw [dumps, ofDumps?]
    simp [numbersOf]
  | cons s rest =>
    rw [dumps, ofDumps?]
    simp [Option.bind_eq_some_iff, ofDump?_dump s, ofDumps?_dumps rest, numbersOf, and_assoc]
termination_by structural ss

end

/-! ## Programs -/

/-- The dump of a program is read if all numbers can be written, and then as this program. -/
theorem Program.ofDump?_dump_eq_some_iff {p q : Program} :
    Program.ofDump? p.dump = some q ↔ AllFinite p.numbers ∧ p = q := by
  change (do return Program.mk (← Stmt.ofDumps? (Stmt.dumps p.statements))) = _ ↔ _
  simp [Option.bind_eq_some_iff, Stmt.ofDumps?_dumps, numbers]

/-- **Dumps read back.** If all its numbers can be written, the dump of a program is read as this
    program, with all its tokens, literals and places, and otherwise it is not read. Whatever is
    read from a dump has the same dump again. Nothing is asked of the program: it may be one that no
    source has. -/
theorem Program.dump_reads_back (p : Program) :
    (AllFinite p.numbers → Program.ofDump? p.dump = some p) ∧
      (¬ AllFinite p.numbers → Program.ofDump? p.dump = none) ∧
      ∀ q, Program.ofDump? p.dump = some q → q.dump = p.dump := by
  refine ⟨fun hfinite => ofDump?_dump_eq_some_iff.2 ⟨hfinite, rfl⟩, fun hinfinite => ?_,
    fun q hread => ?_⟩
  · refine Option.eq_none_iff_forall_ne_some.2 fun q hread => ?_
    exact hinfinite (ofDump?_dump_eq_some_iff.1 hread).1
  · rw [(ofDump?_dump_eq_some_iff.1 hread).2]

/-- A program that is no source's: the keyword of its print statement is an identifier that carries
    a number. It is read if this number is the negative zero, and not if it is an infinity. -/
theorem Program.dump_reads_back_negative_zero :
    let program (x : Float) : Program :=
      ⟨[.ifThen (.literal .null) (.print ⟨.identifier, "x", some (.number x), 2, .point 0 1⟩
        (.array []))]⟩
    Program.ofDump? (program (-0.0)).dump = some (program (-0.0)) ∧
      Program.ofDump? (program (1.0 / 0.0)).dump = none := by
  intro program
  -- The number of the program is in the token of a keyword, where it is dumped as well.
  have hfinite (x : Float) : AllFinite (program x).numbers ↔ Number.IsFinite x := by
    simp [program, numbers, Stmt.numbersOf, Stmt.numbers, Expr.numbers, Expr.numbersOf,
      Literal.numbers, Token.numbers, TokenLiteral.numbers]
  have hzero : Number.shape (-0.0) = .finite ⟨true, 0, -1074⟩ := by decide
  have hinfinity : Number.shape (1.0 / 0.0) = .infinite false := by decide
  constructor
  · exact (dump_reads_back _).1 ((hfinite _).2 ⟨_, hzero⟩)
  · refine (dump_reads_back _).2.1 fun h => ?_
    obtain ⟨b, hb⟩ := (hfinite _).1 h
    rw [hinfinity] at hb
    cases hb

end Treewalk
