import Treewalk.Proofs.Input.Encoding
import Treewalk.Proofs.Number.Reading
import Treewalk.Proofs.Scope.Chain
import Treewalk.Proofs.Session.Printing

/-!
# What is printed reads back

The line that a print statement writes for a value is a line that a read statement of the right kind
reads as this value, bit for bit if it is a number. That holds for numbers that are not infinite,
for truth values, and for strings that fit on a line and do not end in what is taken off the end of
one (`Value.Readable`).
-/

namespace Treewalk

/-! ## Values -/

/-- Can a read statement of this kind read the value? -/
inductive Value.Readable : ReadKind → Value → Prop where
  | number {x : Float} (hx : Number.IsFinite x) : Readable .number (.number x)
  | boolean (value : Bool) : Readable .boolean (.bool value)
  | string {text : String} (hbreak : '\n' ∉ text.toList)
      (hreturn : text.toList.getLast? ≠ some '\r') :
    Readable .string (.string text)

/-- No character of a printed number is white space. -/
theorem Number.isBlank_of_isNumeric {c : Char} (h : Number.isNumeric c = true) :
    Text.isBlank c = false := by
  have hcode : 45 ≤ c.toNat ∧ c.toNat ≤ 69 := by
    simp only [isNumeric, Bool.or_eq_true, beq_iff_eq] at h
    obtain ((hdigit | rfl) | rfl) | rfl := h
    · obtain ⟨hlow, hhigh⟩ := Char.isDigit_iff_toNat.1 hdigit
      exact ⟨Nat.le_trans (by decide) hlow, Nat.le_trans hhigh (by decide)⟩
    all_goals decide
  simp [Text.isBlank, Text.inRanges, Text.blankRanges]
  omega

section

variable {kind : ReadKind} {v : Value}

/-- What is shown for a value that can be read is on one line, and nothing is taken off its end. -/
theorem Value.Readable.fitsOnLine (hv : v.Readable kind) (m : Machine) :
    '\n' ∉ (m.display v).toList ∧ (m.display v).toList.getLast? ≠ some '\r' := by
  rw [Machine.display, Heap.display]
  cases hv with
  -- No character of a number is a line break, and a text that is read back was asked to have none.
  | @number x hx =>
    have hnumeric := Number.isNumeric_of_mem_text hx
    rw [Heap.render]
    constructor
    · intro hmem
      exact absurd (hnumeric _ hmem) (by decide)
    · intro hlast
      exact absurd (hnumeric _ (List.mem_of_getLast? hlast)) (by decide)
  | boolean value => cases value <;> rw [Heap.render] <;> decide
  | string hbreak hreturn =>
    rw [Heap.render]
    exact ⟨hbreak, hreturn⟩

/-- What is shown for a value that can be read stands for this value. -/
theorem Input.value_display (hv : v.Readable kind) (m : Machine) :
    value kind (m.display v).toList = .ok v := by
  rw [Machine.display, Heap.display]
  cases hv with
  | @number x hx =>
    have htrim := Text.trim_of_forall_not fun c hc =>
      Number.isBlank_of_isNumeric (Number.isNumeric_of_mem_text hx c hc)
    rw [Heap.render]
    simp only [value, htrim, Number.ofNumeral?_text hx]
  | boolean value => cases value <;> rw [Heap.render] <;> rfl
  | @string text hbreak hreturn => rw [Heap.render, value, StringStyle.show, String.ofList_toList]

end

namespace Machine

/-- **What is printed reads back.** Let a print statement succeed on a value that can be read. It
    has added a line to the sink. A read statement for a declared variable, on any input that begins
    with this line, takes exactly this line off the input and gives the variable the same value, and
    changes nothing else. -/
theorem read_back {kind : ReadKind} {v : Value} (hv : v.Readable kind) {fuel : Nat}
    {keyword : Token} {e : Expr}
    {m before after : Machine} (hvalue : (evaluate fuel e).outcome m = (.done v, before))
    (hprint : (execute (fuel + 1) (.print keyword e)).outcome m = (.done .normal, after)) :
    ∃ line : ByteArray, after.sink = before.sink.append line ∧
      ∀ (m : Machine) (rest : List UInt8) (fuel : Nat) (keyword name : Token) (owner : Nat),
        m.input = line.data.toList ++ rest → m.scopes.owner? m.current name.lexeme = some owner →
        ∃ m', (execute (fuel + 1) (.read kind keyword (.name name))).outcome m =
          (.done .normal, m') ∧
          m' = { m with input := rest, scopes := m.scopes.declare owner name.lexeme v } ∧
          m'.scopes.get? m'.current name.lexeme = some v := by
  have hwritten : (before.sink.writeLine (before.display v)).2 = none := by
    rw [outcome_print_of_done keyword hvalue] at hprint
    cases hreason : (before.sink.writeLine (before.display v)).2 with
    | none => rfl
    | some reason =>
      rw [hreason] at hprint
      cases hprint
  -- So all of the line is in the sink, and nothing of it can be taken for the end of a line but its
  -- end.
  obtain ⟨hbreak, hreturn⟩ := hv.fitsOnLine before
  refine ⟨(before.display v ++ "\n").toByteArray, ?_,
    fun m rest fuel keyword name owner hinput howner => ?_⟩
  · rw [outcome_print_of_done keyword hvalue, hwritten] at hprint
    cases hprint
    rw [sink_printed, Sink.writeLine_eq_append hwritten]
  · refine ⟨_, ?_, rfl, Forest.get?_declare_owner howner v⟩
    have hread : Input.valueOfLine kind (Input.ofText (before.display v ++ "\n")) = .ok v := by
      rw [Input.valueOfLine_ofText hbreak hreturn, Input.value_display hv]
    have hline : Input.nextLine m.input = (Input.ofText (before.display v ++ "\n"), rest) := by
      rw [show m.input = Input.ofText (before.display v ++ "\n") ++ rest from hinput,
        Input.nextLine_ofText hbreak]
    simp only [execute, readInto, Run.outcome_bind, Run.outcome_readLine, hline, hread, Run.orFail,
      Run.outcome_pure, Run.outcome_assign, howner]

/-- The negative double next to zero is printed in one session and read back in another one. -/
theorem read_back_smallest :
    let x := Float.ofBits 0x8000000000000001
    let writer := start [] .unlimited
    ∃ after line,
      (execute 2 (.print (.plain .printWord "print" (.point 0 1)) (.literal (.number x)))).outcome
        writer =
        (.done .normal, after) ∧
      after.sink = writer.sink.append line ∧
      ∀ rest, let reader := (start (line.data.toList ++ rest) .unlimited).declareGlobal "x" .null
        let target : Token := .plain .identifier "x" (.point 11 1)
        ∃ m', (execute 1 (.read .number (.plain .readNumberWord "readnumber" (.point 0 1))
          (.name target))).outcome
            reader = (.done .normal, m') ∧
          m'.input = rest ∧ m'.scopes.get? globals "x" = some (.number x) := by
  intro x writer
  -- The smallest negative double, whose shortest digits are a single five.
  have hx : Value.Readable .number (.number x) := .number ⟨⟨true, 1, -1074⟩, by decide⟩
  have hvalue : (evaluate 1 (.literal (.number x))).outcome writer = (.done (.number x), writer) :=
    rfl
  have hprint := outcome_print_of_unlimited (.plain .printWord "print" (.point 0 1)) hvalue rfl
  obtain ⟨line, hsink, hread⟩ := read_back hx hvalue hprint
  refine ⟨_, line, hprint, hsink, fun rest => ?_⟩
  obtain ⟨m', houtcome, rfl, hget⟩ :=
    hread ((start (line.data.toList ++ rest) .unlimited).declareGlobal "x" .null)
    rest 0 (.plain .readNumberWord "readnumber" (.point 0 1))
      (.plain .identifier "x" (.point 11 1)) globals rfl
    (by cbv)
  exact ⟨_, houtcome, rfl, hget⟩

end Machine

end Treewalk
