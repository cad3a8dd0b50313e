import Treewalk.Proofs.Evaluation.Evolution

/-!
# What is printed is logged

Each line that a program prints goes to the sink and then to the log. The sink may refuse any part
of it, or fail to flush when it has taken all of it; such a line is not logged, and no program goes
on after it. So up to whatever outcome, the log and the sink have got the same lines, and the sink
may have got a first part of one more if it is the sink that has failed (`Machine.Printed`).

Everything that programs are made of prints like this, so programs do
(`Machine.compositional_printed`).
-/

namespace Treewalk

/-! ## Lines in a sink -/

namespace Sink

/-- The bytes of some lines, each with its line break. -/
def ofLines (lines : List String) : ByteArray := (String.join (lines.map (· ++ "\n"))).toByteArray

/-- No lines are no bytes. -/
theorem ofLines_nil : ofLines [] = .empty := rfl

/-- A line is its text and a newline. -/
theorem ofLines_singleton (line : String) : ofLines [line] = (line ++ "\n").toByteArray := by
  rw [ofLines, List.map_singleton, String.join_cons, String.join_nil, String.append_empty]

/-- Lines are put on a sink one after the other. -/
theorem ofLines_append (lines others : List String) :
    ofLines (lines ++ others) = ofLines lines ++ ofLines others := by
  rw [ofLines, List.map_append, String.join_append, String.toByteArray_append, ofLines, ofLines]

/-- A line that is written adds a first part of itself and its line break, and all of that unless it
    fails. -/
theorem exists_writeLine (s : Sink) (line : String) :
    ∃ taken left, (s.writeLine line).1 = s.append taken ∧
      (line ++ "\n").toByteArray = taken ++ left ∧
      ((s.writeLine line).2 = none → left = .empty) := by
  obtain ⟨taken, left, hsink, hline, hdone⟩ := s.exists_write line
  rw [writeLine, String.toByteArray_append, hline]
  cases hout : s.write line with
  | mk s' reason =>
    rw [hout] at hsink hdone
    obtain rfl : s' = s.append taken := hsink
    cases reason with
    | some reason =>
      -- The text has failed, and the line break has not been tried.
      exact ⟨taken, left ++ "\n".toByteArray, rfl, ByteArray.append_assoc, fun h => nomatch h⟩
    | none =>
      -- The text is written, so the sink is now before the line break.
      obtain rfl := hdone rfl
      obtain ⟨taken', left', hsink', hbreak, hdone'⟩ := (s.append taken).exists_write "\n"
      dsimp only
      have hwhole : taken ++ .empty ++ "\n".toByteArray = taken ++ taken' ++ left' := by
        rw [ByteArray.append_empty, ByteArray.append_assoc, ← hbreak]
      cases hout' : (s.append taken).write "\n" with
      | mk s'' reason =>
        rw [hout'] at hsink' hdone'
        obtain rfl : s'' = (s.append taken).append taken' := hsink'
        cases reason with
        | some reason =>
          exact ⟨taken ++ taken', left', append_append .., hwhole, fun h => nomatch h⟩
        | none => exact ⟨taken ++ taken', left', append_append .., hwhole, fun _ => hdone' rfl⟩

/-- A line that has been written is in the sink. -/
theorem writeLine_eq_append {s : Sink} {line : String} (h : (s.writeLine line).2 = none) :
    (s.writeLine line).1 = s.append (line ++ "\n").toByteArray := by
  obtain ⟨taken, left, hsink, hline, hdone⟩ := s.exists_writeLine line
  rw [hsink, hline, hdone h, ByteArray.append_empty]

/-- Without a limit a piece is written as a whole. -/
theorem write_of_unlimited {s : Sink} (h : s.device = .unlimited) (piece : String) :
    s.write piece = (s.append piece.toByteArray, none) := by
  obtain ⟨device, bytes⟩ := s
  obtain rfl : device = .unlimited := h
  rw [write]
  split
  · next hempty => rw [hempty, String.toByteArray_empty, append_empty]
  · rfl

/-- Without a limit a line is written as a whole. -/
theorem writeLine_of_unlimited {s : Sink} (h : s.device = .unlimited) (line : String) :
    s.writeLine line = (s.append (line ++ "\n").toByteArray, none) := by
  have hdevice : (s.append line.toByteArray).device = .unlimited := h
  simp only [writeLine, write_of_unlimited h, write_of_unlimited hdevice, append_append,
    ← String.toByteArray_append]
  rw [append, h]
  rfl

end Sink

/-! ## Lines that programs print -/

namespace Machine

variable {α : Type}

/-- A print statement on whose line the sink has failed. Its value has been found, and `before` is
    the machine on which the text of the value was to be written. -/
def FailedPrint (before : Machine) (keyword : Token) (text reason : String) : Prop :=
  ∃ fuel e m v, (evaluate fuel e).outcome m = (.done v, before) ∧ before.display v = text ∧
    (execute (fuel + 1) (.print keyword e)).outcome m =
      (.failed (.atToken keyword (.unwritableOutput reason)), before.printed text)

/-- What has been printed from a machine to another one, up to an outcome. -/
inductive Printed (m m' : Machine) (outcome : Outcome α) : Prop where
  /-- The log and the sink have got the same lines, and the sink has not failed. -/
  | whole (lines : List String) (hlog : m'.log = m.log ++ lines.toArray)
      (hsink : m'.sink = m.sink.append (Sink.ofLines lines))
      (hfault : ∀ error, outcome = .failed error → error.fault.ofSink = false)
  /-- After the same lines, the sink has failed on the line of a print statement. -/
  | broken (lines : List String) (before : Machine) (keyword : Token) (text reason : String)
      (hlog : before.log = m.log ++ lines.toArray)
      (hsink : before.sink = m.sink.append (Sink.ofLines lines))
      (hfailed : FailedPrint before keyword text reason) (hlog' : m'.log = before.log)
      (hsink' : m'.sink = (before.printed text).sink)
      (houtcome : outcome = .failed (.atToken keyword (.unwritableOutput reason)))

namespace Printed

variable {m m' m₁ m₂ m₃ : Machine} {outcome : Outcome α}

/-- Nothing is printed if neither the log nor the sink is touched. -/
theorem of_eq (hlog : m'.log = m.log) (hsink : m'.sink = m.sink)
    (hfault : ∀ error, outcome = .failed error → error.fault.ofSink = false) :
    Printed m m' outcome := by
  refine .whole [] ?_ ?_ hfault
  · rw [hlog]
    exact (Array.append_empty).symm
  · rw [hsink, Sink.ofLines_nil, Sink.append_empty]

/-- A step that leaves log and sink as they were has printed no lines. -/
theorem of_done {a : α} (hlog : m'.log = m.log) (hsink : m'.sink = m.sink) :
    Printed m m' (.done a) :=
  of_eq hlog hsink fun _ h => nomatch h

/-- Only the sink and the log matter. -/
theorem congr (h : Printed m m' outcome) (hlog : m₁.log = m.log) (hsink : m₁.sink = m.sink)
    (hlog' : m₂.log = m'.log) (hsink' : m₂.sink = m'.sink) : Printed m₁ m₂ outcome := by
  cases h with
  | whole lines h₁ h₂ hfault =>
    rw [← hlog, ← hlog'] at h₁
    rw [← hsink, ← hsink'] at h₂
    exact .whole lines h₁ h₂ hfault
  | broken lines before keyword text reason h₁ h₂ hfailed h₃ h₄ houtcome =>
    rw [← hlog] at h₁
    rw [← hsink] at h₂
    exact .broken lines before keyword text reason h₁ h₂ hfailed (hlog'.trans h₃)
      (hsink'.trans h₄) houtcome

/-- What is printed up to a value and from there on has been printed. -/
theorem trans {β : Type} {a : β} (h₁ : Printed m₁ m₂ (.done a)) (h₂ : Printed m₂ m₃ outcome) :
    Printed m₁ m₃ outcome := by
  cases h₁ with
  -- Behind a line that could not be written there is no value, so nothing follows it.
  | broken _ _ _ _ _ _ _ _ _ _ houtcome => cases houtcome
  | whole lines hlog hsink _ =>
    have hlogs (others : List String) :
        m₂.log ++ others.toArray = m₁.log ++ (lines ++ others).toArray := by
      rw [hlog, Array.append_assoc, ← List.append_toArray]
    have hsinks (others : List String) :
        m₂.sink.append (Sink.ofLines others) = m₁.sink.append (Sink.ofLines (lines ++ others)) := by
      rw [hsink, Sink.append_append, Sink.ofLines_append]
    cases h₂ with
    | whole others hlog' hsink' hfault =>
      exact .whole (lines ++ others) (hlog'.trans (hlogs others))
        (hsink'.trans (hsinks others)) hfault
    | broken others before keyword text reason hlog' hsink' hfailed h₃ h₄ houtcome =>
      exact .broken (lines ++ others) before keyword text reason (hlog'.trans (hlogs others))
        (hsink'.trans (hsinks others)) hfailed h₃ h₄ houtcome

/-- A run that has ended early has printed what it has printed, whatever it should have given. -/
theorem failed {β : Type} {error : RuntimeError} (h : Printed m m' (.failed error : Outcome β)) :
    Printed m m' (.failed error : Outcome α) := by
  cases h with
  | whole lines hlog hsink hfault =>
    refine .whole lines hlog hsink ?_
    rintro _ ⟨⟩
    exact hfault error rfl
  | broken lines before keyword text reason hlog hsink hfailed hlog' hsink' houtcome =>
    cases houtcome
    exact .broken lines before keyword text reason hlog hsink hfailed hlog' hsink' rfl

/-- What has been printed without an end may be counted for any type of value. -/
theorem unfinished {β : Type} (h : Printed m m' (.unfinished : Outcome β)) :
    Printed m m' (.unfinished : Outcome α) := by
  cases h with
  | whole lines hlog hsink _ => exact .whole lines hlog hsink fun _ h => nomatch h
  | broken _ _ _ _ _ _ _ _ _ _ houtcome => cases houtcome

/-- What is put together from two runs has printed what they have. -/
theorem bind {β : Type} {run : Run α} {next : α → Run β} {m : Machine}
    (hrun : Printed m (run.outcome m).2 (run.outcome m).1)
    (hnext : ∀ a m', run.outcome m = (.done a, m') →
      Printed m' ((next a).outcome m').2 ((next a).outcome m').1) :
    Printed m ((run >>= next).outcome m).2 ((run >>= next).outcome m).1 := by
  rw [Run.outcome_bind]
  cases hout : run.outcome m with
  | mk outcome m' =>
    rw [hout] at hrun
    cases outcome with
    | done a => exact hrun.trans (hnext a m' hout)
    | failed error => exact hrun.failed
    | unfinished => exact hrun.unfinished

end Printed

/-- However it ends, writing a line leaves the sink behind that the writing has made. -/
theorem sink_printed (m : Machine) (line : String) :
    (m.printed line).sink = (m.sink.writeLine line).1 := by
  rw [printed]
  split <;> simp [*]

/-- When its value has been found, a print statement writes a line, on which the sink may fail. -/
theorem outcome_print_of_done {fuel : Nat} (keyword : Token) {e : Expr} {m before : Machine}
    {v : Value} (hvalue : (evaluate fuel e).outcome m = (.done v, before)) :
    (execute (fuel + 1) (.print keyword e)).outcome m =
      (match (before.sink.writeLine (before.display v)).2 with
        | none => .done .normal
        | some reason => .failed (.atToken keyword (.unwritableOutput reason)),
        before.printed (before.display v)) := by
  rw [execute, Run.outcome_bind, hvalue]
  dsimp only
  rw [Run.outcome_bind, Run.outcome_query]
  dsimp only
  rw [Run.outcome_bind, Run.outcome_print]
  cases (before.sink.writeLine (before.display v)).2 <;> rfl

/-- On a sink without a limit it writes the line and goes on. -/
theorem outcome_print_of_unlimited {fuel : Nat} (keyword : Token) {e : Expr} {m before : Machine}
    {v : Value} (hvalue : (evaluate fuel e).outcome m = (.done v, before))
    (h : before.sink.device = .unlimited) :
    (execute (fuel + 1) (.print keyword e)).outcome m =
      (.done .normal, before.printed (before.display v)) := by
  rw [outcome_print_of_done keyword hvalue, Sink.writeLine_of_unlimited h]

/-- A print statement prints what its expression does, and then its line, which is not logged if the
    sink fails. -/
theorem printed_print {fuel : Nat} (keyword : Token) {e : Expr} {m : Machine}
    (he : Printed m ((evaluate fuel e).outcome m).2 ((evaluate fuel e).outcome m).1) :
    Printed m ((execute (fuel + 1) (.print keyword e)).outcome m).2
      ((execute (fuel + 1) (.print keyword e)).outcome m).1 := by
  rw [execute]
  apply he.bind
  intro v before hvalue
  have hprint := outcome_print_of_done keyword hvalue
  -- What is left of the statement behind its expression is what the whole of it does from here.
  have hline := hprint
  rw [execute, Run.outcome_bind, hvalue] at hline
  dsimp only at hline
  rw [hline]
  cases hout : before.sink.writeLine (before.display v) with
  | mk sink reason =>
    rw [hout] at hprint
    cases reason with
    | none =>
      have hwhole := Sink.writeLine_eq_append (congrArg Prod.snd hout)
      refine .whole [before.display v] ?_ ?_ ?_
      · rw [printed, hout]
        rfl
      · rw [sink_printed, hwhole, Sink.ofLines_singleton]
      · rintro _ ⟨⟩
    | some reason =>
      -- The whole statement, from the machine it has been carried out on, is the failed print.
      refine .broken [] before keyword (before.display v) reason Array.append_empty.symm ?_
        ⟨fuel, e, m, v, hvalue, rfl, hprint⟩ ?_ rfl rfl
      · rw [Sink.ofLines_nil, Sink.append_empty]
      · rw [printed, hout]

/-- What expressions are made of prints whole lines that are logged, up to the first failure. -/
theorem expressive_printed :
    Run.Expressive fun _ run => ∀ m, Printed m (run.outcome m).2 (run.outcome m).1 where
  pure a m := .of_done rfl rfl
  bind hrun hnext m := (hrun m).bind fun a m' _ => hnext a m'
  -- Only printing stops with a fault of the sink, and none of these prints.
  stop reason hreason m := by
    cases reason with
    | fault error =>
      refine .of_eq rfl rfl ?_
      rintro _ ⟨⟩
      exact hreason
    | outOfFuel => exact .of_eq rfl rfl fun _ h => nomatch h
  query f m := .of_done rfl rfl
  onHeap span f hf m := by
    rw [Run.outcome_onHeap]
    cases hresult : f m.heap with
    | ok a => exact .of_done rfl rfl
    | error fault =>
      refine .of_eq rfl rfl ?_
      rintro _ ⟨⟩
      exact hf hresult
  newArray elements m := .of_done rfl rfl
  store slot value m := .of_done rfl rfl
  lookup name m := by
    rw [Run.outcome_lookup]
    split
    · exact .of_done rfl rfl
    · refine .of_eq rfl rfl ?_
      rintro _ ⟨⟩
      rfl
  assign name value m := by
    rw [Run.outcome_assign]
    split
    · exact .of_done rfl rfl
    · refine .of_eq rfl rfl ?_
      rintro _ ⟨⟩
      rfl

/-- Everything that programs are made of prints whole lines that are logged, up to the first
    failure. -/
theorem compositional_printed :
    Run.Compositional fun _ run => ∀ m, Printed m (run.outcome m).2 (run.outcome m).1 where
  toExpressive := expressive_printed
  newFunction name params body m := .of_done rfl rfl
  declare name value m := .of_done rfl rfl
  -- The scope around a block or a call makes no difference to the log and the sink.
  inBlock {_ run} hrun m := by
    rw [Run.inBlock, Run.outcome_bind, Run.outcome_query]
    dsimp only
    rw [Run.outcome_inNewScope]
    exact (hrun _).congr rfl rfl rfl rfl
  inFrame hrun m := by
    rw [Run.outcome_inNewScope]
    exact (hrun _).congr rfl rfl rfl rfl
  print keyword _ he m := printed_print keyword (he m)
  read := expressive_printed.read fun _ => .of_done rfl rfl

/-- **What is printed is logged.** Carrying out statements adds some lines to the log, and to the
    sink the same lines with a line break behind each. Nothing else gets into either of them, unless
    the run ends because the sink has failed: then a print statement was about to write its text,
    which is not logged, and some first bytes of that text and its line break are in the sink. -/
theorem printed_and_logged (fuel : Nat) (body : List Stmt) (m : Machine) :
    ∃ outcome m' lines rest, (inOrder (execute fuel) body).outcome m = (outcome, m') ∧
      m'.log = m.log ++ lines.toArray ∧ m'.sink = m.sink.append (Sink.ofLines lines ++ rest) ∧
      ((rest = .empty ∧ ∀ error, outcome = .failed error →
        ∀ reason, error.fault ≠ .unwritableOutput reason) ∨
        ∃ (before : Machine) (keyword : Token) (text reason : String) (left : ByteArray),
          outcome = .failed (.atToken keyword (.unwritableOutput reason)) ∧
          before.FailedPrint keyword text reason ∧ before.log = m'.log ∧
          before.sink = m.sink.append (Sink.ofLines lines) ∧ (before.printed text).sink = m'.sink ∧
          (text ++ "\n").toByteArray = rest ++ left) := by
  have hprinted := compositional_printed.inOrder (compositional_printed.execute fuel) body m
  generalize (inOrder (execute fuel) body).outcome m = out at hprinted ⊢
  obtain ⟨outcome, m'⟩ := out
  -- Either all lines were written, or the last one broke off, with the bytes of it that the sink
  -- still took.
  cases hprinted with
  | whole lines hlog hsink hfault =>
    refine ⟨outcome, m', lines, .empty, rfl, hlog, ?_, .inl ⟨rfl, ?_⟩⟩
    · rw [ByteArray.append_empty]
      exact hsink
    · intro error herror reason hreason
      have hinner := hfault error herror
      rw [hreason] at hinner
      cases hinner
  | broken lines before keyword text reason hlog hsink hfailed hlog' hsink' houtcome =>
    obtain ⟨rest, left, htaken, hline, -⟩ := before.sink.exists_writeLine text
    rw [hsink, Sink.append_append, ← hsink, ← sink_printed, ← hsink'] at htaken
    exact ⟨outcome, m', lines, rest, rfl, hlog'.trans hlog, htaken,
      .inr ⟨before, keyword, text, reason, left, houtcome, hfailed, hlog'.symm, hsink, hsink'.symm,
        hline⟩⟩

end Machine

end Treewalk
