import Treewalk.Proofs.Session.Layout
import Treewalk.Proofs.Session.Printing
import Treewalk.Proofs.Session.Requests
import Treewalk.Proofs.Token.Location

/-!
# Where the diagnostics of a session are

What is wrong with a source before it runs lies in that source (`Program.liesIn_of_error`). A fault
of a running program is put at the span of some token that the program is made of, or that a
function is made of which an earlier source has declared. A machine is *made of* some tokens if all
functions on it are (`Machine.MadeOf`); running a source adds the tokens of that source, and a fault
is at one of these (`Machine.MadeOf.runSource`).

So on a machine on which nothing has run, all diagnostics lie in the source
(`Machine.diagnostics_located`). Later on, a fault may be at a token of an earlier source
(`Machine.diagnostics_located_among`), the span of which need not lie in the source that is run
(`Machine.diagnostic_behind_end`).
-/

namespace Treewalk

/-! ## Programs and machines made of some tokens -/

namespace Matching

variable {own : Token → Prop}

/-- Each of some tokens matches itself, and nothing else matches. -/
def among (own : Token → Prop) : Matching where
  token t t' := t = t' ∧ own t
  span s s' := s = s' ∧ ∃ t, own t ∧ t.span = s
  sameText := by
    rintro t _ ⟨rfl, -⟩
    exact .refl t
  span_of_token := by
    rintro t _ ⟨rfl, ht⟩
    exact ⟨rfl, t, ht, rfl⟩

/-- Tokens that are the machine's own count as the same as themselves. -/
theorem forall₂_among {tokens : List Token} (h : ∀ t ∈ tokens, own t) :
    List.Forall₂ (among own).token tokens tokens :=
  List.forall₂_same.2 fun t ht => ⟨rfl, h t ht⟩

/-- A note of the parser is put at one of its tokens. -/
theorem Note.exists_token {d d' : Diagnostic} (h : (among own).Note d d') :
    ∃ t fault, own t ∧ d = .syntactic t fault := by
  cases h with
  | @about t _ fault ht => exact ⟨t, fault, ht.2, rfl⟩

end Matching

/-- Between a run and itself, if all trees are made of some tokens. -/
def Link.among (own : Token → Prop) : Link where
  scopes := .same 1
  functions := .same 0
  trees := (Matching.among own).trees
  shared_pos := Nat.one_pos

/-- All functions on a machine are made of some tokens. -/
def Machine.MadeOf (own : Token → Prop) (m : Machine) : Prop := m.Alike (.among own) m

/-! ## Sources -/

namespace Program

variable {source : String}

/-- The program of a source that is accepted. -/
theorem eq_of_ofSource {p : Program} (h : ofSource source = .ok p) :
    p = (Parsed.ofTokens (Lexed.ofSource source).tokens).program := by
  rw [ofSource] at h
  split at h
  · exact (Except.ok.inj h).symm
  · cases h

/-- What is wrong with a source before it runs lies in the source, and is put on the right line. -/
theorem liesIn_of_error {ds : List Diagnostic} (h : ofSource source = .error ds) {d : Diagnostic}
    (hd : d ∈ ds) : d.span.LiesIn source ∧ d.line = d.span.line ∧ d.phase ≠ .runtime := by
  have hmem : d ∈ (Lexed.ofSource source).diagnostics ++
      (Parsed.ofTokens (Lexed.ofSource source).tokens).diagnostics := by
    rw [ofSource] at h
    split at h
    · cases h
    · rw [← Except.error.inj h] at hd
      exact (List.mergeSort_perm ..).mem_iff.1 hd
  obtain hlexed | hparsed := List.mem_append.1 hmem
  · obtain ⟨hspan, hline, hphase⟩ := Lexed.liesIn_of_mem_diagnostics hlexed
    rw [hphase]
    exact ⟨hspan, hline, by decide⟩
  · -- The parser notes faults at tokens that it has been given.
    have hnotes := ((Matching.among (· ∈ (Lexed.ofSource source).tokens)).ofTokens_alike
      (Matching.forall₂_among fun _ => id) (Lexed.exists_eof source)).2
    obtain ⟨t, fault, ht, rfl⟩ := (List.forall₂_same.1 hnotes d hparsed).exists_token
    obtain ⟨hspan, hline⟩ := Lexed.liesIn_of_mem_tokens ht
    have hphase : Phase.syntactic ≠ .runtime := by decide
    exact ⟨hspan, hline, hphase⟩

end Program

namespace Machine

variable {own : Token → Prop} {m : Machine}

/-- A machine on which nothing has run is made of any tokens. -/
theorem madeOf_start (own : Token → Prop) (input : List UInt8) (device : Device) :
    (start input device).MadeOf own := by
  have hunbound (name : String) (scope : Nat) : (Forest.empty.push none).findIn? name scope =
      none := by
    obtain hlt | heq | hgt := Nat.lt_trichotomy scope Forest.empty.size
    · exact absurd hlt (Nat.not_lt_zero scope)
    · rw [heq]
      exact Forest.findIn?_push_size ..
    · apply Forest.findIn?_of_size_le
      rw [Forest.size_push]
      exact hgt
  -- Nothing is bound and there are no arrays, so there is no function to look at.
  refine ⟨⟨⟨0, rfl, rfl⟩, ?_, ?_⟩, ⟨?_, 0, rfl, rfl⟩, rfl, rfl, rfl⟩
  · intro i j hij
    obtain rfl := Shift.rel_same.1 hij
    exact List.forall₂_same.2 fun scope _ => Shift.rel_same.2 rfl
  · intro i j hij name
    rw [start, hunbound, hunbound]
    exact .none
  · intro ref
    exact .none

namespace MadeOf

/-- Running a source keeps a machine made of some tokens, if they include those of the source. A
    fault is then at the span of one of them. -/
theorem runSource (hm : m.MadeOf own) {source : String}
    (htokens : ∀ t ∈ (Lexed.ofSource source).tokens, own t) (fuel : Nat) :
    (m.runSource fuel source).2.MadeOf own ∧
      ∀ error, (m.runSource fuel source).1 = .stopped error → ∃ t, own t ∧ t.span = error.span := by
  cases hp : Program.ofSource source with
  | error ds =>
    simp only [Machine.runSource, hp]
    refine ⟨hm, ?_⟩
    intro error hstopped
    cases hstopped
  | ok p =>
    have hstatements : List.Forall₂ (Matching.among own).trees.stmt p.statements p.statements := by
      rw [Program.eq_of_ofSource hp]
      exact ((Matching.among own).ofTokens_alike (Matching.forall₂_among htokens)
        (Lexed.exists_eof source)).1
    -- The run is compared with itself, to see that it never meets a token that is not one of them.
    have hrun : Run.Alike (.among own) (fun _ _ => True) (p.run fuel) (p.run fuel) :=
      (inOrder_alike (execute_alike fuel) hstatements).bind fun _ => .pure trivial
    obtain ⟨houtcome, hmachine, -⟩ := hrun m m hm (Shift.rel_same.2 rfl)
    rw [runSource_of_ok hp]
    refine ⟨hmachine, ?_⟩
    intro error hstopped
    generalize ((p.run fuel).outcome m).1 = outcome at houtcome hstopped
    cases houtcome with
    | done _ => cases hstopped
    | unfinished => cases hstopped
    | @failed fault span _ hspan =>
      cases hstopped
      exact hspan.2

/-- Running some sources one after the other keeps a machine made of some tokens, if they include
    those of the sources. -/
theorem serveAll (hm : m.MadeOf own) (runs : List (Nat × String))
    (htokens : ∀ run ∈ runs, ∀ t ∈ (Lexed.ofSource run.2).tokens, own t) :
    (m.serveAll (runs.map fun run => (run.1, .run run.2))).MadeOf own := by
  induction runs generalizing m with
  | nil => exact hm
  | cons run runs ih =>
    obtain ⟨hfirst, hothers⟩ := List.forall_mem_cons.1 htokens
    exact ih (hm.runSource hfirst run.1).1 hothers

/-- A diagnostic of a source lies in the source, unless it is a fault at one of the tokens. -/
theorem diagnostic (hm : m.MadeOf own) {source : String}
    (htokens : ∀ t ∈ (Lexed.ofSource source).tokens, own t) (fuel : Nat) {d : Diagnostic}
    (hd : d ∈ (m.runSource fuel source).1.diagnostics) :
    d.line = d.span.line ∧ ((d.phase ≠ .runtime ∧ d.span.LiesIn source) ∨
      (d.phase = .runtime ∧ ∃ t, own t ∧ t.span = d.span)) := by
  -- A source that is rejected is blamed at its own text; one that is accepted only by a fault of
  -- its run.
  cases hp : Program.ofSource source with
  | error ds =>
    simp only [Machine.runSource, hp] at hd
    obtain ⟨hspan, hline, hphase⟩ := Program.liesIn_of_error hp hd
    exact ⟨hline, .inl ⟨hphase, hspan⟩⟩
  | ok p =>
    have hstopped := (hm.runSource htokens fuel).2
    rw [runSource_of_ok hp] at hd hstopped
    generalize ((p.run fuel).outcome m).1 = outcome at hd hstopped
    cases outcome with
    | done _ => cases hd
    | unfinished => cases hd
    | failed error =>
      obtain rfl := List.mem_singleton.1 hd
      exact ⟨rfl, .inr ⟨rfl, hstopped error rfl⟩⟩

end MadeOf

/-- **Diagnostics point into the source.** On a machine on which nothing has run, with whatever
    input and device, every diagnostic of a source has a span that lies in the source, and the line
    of its span. If it is a fault of the running program, then the span is that of a token of the
    source. -/
theorem diagnostics_located (fuel : Nat) (source : String) (input : List UInt8) (device : Device) :
    ∀ d ∈ ((start input device).runSource fuel source).1.diagnostics,
      d.span.start ≤ d.span.stop ∧ d.span.stop ≤ source.utf8ByteSize ∧
        d.span.LiesIn source ∧ d.line = d.span.line ∧
        (d.phase = .runtime → ∃ t ∈ (Lexed.ofSource source).tokens, t.span = d.span) := by
  intro d hd
  have hstart := madeOf_start (· ∈ (Lexed.ofSource source).tokens) input device
  obtain ⟨hline, ⟨hphase, hspan⟩ | ⟨-, t, ht, heq⟩⟩ := hstart.diagnostic (fun _ => id) fuel hd
  · exact ⟨hspan.start_le_stop, hspan.stop_le_size, hspan, hline, fun h => absurd h hphase⟩
  · have hspan := (Lexed.liesIn_of_mem_tokens ht).1
    rw [heq] at hspan
    exact ⟨hspan.start_le_stop, hspan.stop_le_size, hspan, hline, fun _ => ⟨t, ht, heq⟩⟩

/-- A fault of the run in the second line, behind a character of two bytes. -/
theorem diagnostics_located_on_second_line :
    let source := "print \"é\";\nprint -null;"
    let d : Diagnostic := .runtime ⟨.operandNotNumber, 18, 19, 2⟩
    d ∈ ((start [] .unlimited).runSource 4 source).1.diagnostics ∧ d.span.LiesIn source ∧
      ∃ t ∈ (Lexed.ofSource source).tokens, t.span = d.span := by
  intro source d
  let keyword (span : Span) : Token := .plain .printWord "print" span
  have hlexed : (Lexed.ofSource source).diagnostics = [] ∧ (Lexed.ofSource source).tokens =
      [keyword ⟨0, 5, 1⟩,
        { Token.plain .string "\"é\"" ⟨6, 10, 1⟩ with literal := some (.string "é") },
        .plain .semi ";" ⟨10, 11, 1⟩, keyword ⟨12, 17, 2⟩, .plain .minus "-" ⟨18, 19, 2⟩,
        .plain .nullWord "null" ⟨19, 23, 2⟩, .plain .semi ";" ⟨23, 24, 2⟩, .eof 24 2] := by
    decide +kernel
  have hp : Program.ofSource source =
      .ok ⟨[.print (keyword ⟨0, 5, 1⟩) (.literal (.string "é")),
        .print (keyword ⟨12, 17, 2⟩) (.unary .neg (.literal .null) ⟨18, 19, 2⟩)]⟩ := by
    rw [Program.ofSource_of_lexed hlexed.1, hlexed.2]
    with_unfolding_all rfl
  have hvalue : (evaluate 3 (.literal (.string "é"))).outcome (start [] .unlimited) =
      (.done (.string "é"), start [] .unlimited) := rfl
  have hprint := outcome_print_of_unlimited (keyword ⟨0, 5, 1⟩) hvalue rfl
  have hd : d ∈ ((start [] .unlimited).runSource 4 source).1.diagnostics := by
    have hdiagnostics : ((start [] .unlimited).runSource 4 source).1.diagnostics = [d] := by
      simp only [runSource_of_ok hp, Program.run, inOrder, Run.outcome_bind, hprint]
      rfl
    rw [hdiagnostics]
    exact List.mem_singleton_self d
  obtain ⟨-, -, hspan, -, htoken⟩ := diagnostics_located 4 source [] .unlimited d hd
  exact ⟨hd, hspan, htoken rfl⟩

/-- **Diagnostics of a session point into its sources.** After any sources have been run, what is
    wrong with a further one before it runs lies in that source. A fault of the running program is
    at a token of that source or of one of the earlier ones, and lies there. -/
theorem diagnostics_located_among (runs : List (Nat × String)) (fuel : Nat) (source : String)
    (input : List UInt8) (device : Device) :
    ∀ d ∈ (((start input device).serveAll (runs.map fun run => (run.1, .run run.2))).runSource
        fuel source).1.diagnostics,
      d.line = d.span.line ∧ (d.phase ≠ .runtime → d.span.LiesIn source) ∧
        (d.phase = .runtime → ∃ s ∈ source :: runs.map Prod.snd,
          d.span.LiesIn s ∧ ∃ t ∈ (Lexed.ofSource s).tokens, t.span = d.span) := by
  intro d hd
  -- Tokens may be those of this source or of an earlier one, since functions declared there may be
  -- called here.
  have hearlier := (madeOf_start (fun t =>
    ∃ s ∈ source :: runs.map Prod.snd, t ∈ (Lexed.ofSource s).tokens)
    input device).serveAll runs fun run hrun t ht =>
      ⟨run.2, List.mem_cons_of_mem _ (List.mem_map_of_mem hrun), ht⟩
  obtain ⟨hline, ⟨hphase, hspan⟩ | ⟨hphase, t, ⟨s, hs, ht⟩, heq⟩⟩ :=
    hearlier.diagnostic (fun t ht => ⟨source, List.mem_cons_self, ht⟩) fuel hd
  · exact ⟨hline, fun _ => hspan, fun h => absurd h hphase⟩
  · have hspan := (Lexed.liesIn_of_mem_tokens ht).1
    rw [heq] at hspan
    exact ⟨hline, fun h => absurd hphase h, fun _ => ⟨s, hs, hspan, t, ht, heq⟩⟩

/-- A function that an earlier source has declared fails where it stands in that source. -/
theorem diagnostics_of_earlier_function :
    (((start [] .unlimited).serveAll
        [(2, .run "function f() \x7b return -null; \x7d")]).runSource 6 "f();").1.diagnostics =
      [.runtime ⟨.operandNotNumber, 22, 23, 1⟩] := by
  let f (span : Span) : Token := .plain .identifier "f" span
  have hp : Program.ofSource "function f() \x7b return -null; \x7d" =
      .ok ⟨[.function (f ⟨9, 10, 1⟩) [] [.result (.plain .returnWord "return" ⟨15, 21, 1⟩)
        (some (.unary .neg (.literal .null) ⟨22, 23, 1⟩))]]⟩ := by
    with_unfolding_all rfl
  have hq : Program.ofSource "f();" =
      .ok ⟨[.expression (.call (.name (f ⟨0, 1, 1⟩)) [] (.plain .rParen ")" ⟨2, 3, 1⟩))]⟩ := by
    with_unfolding_all rfl
  have hserved : (start [] .unlimited).serveAll
      [(2, .run "function f() \x7b return -null; \x7d")] =
        ((start [] .unlimited).runSource 2 "function f() \x7b return -null; \x7d").2 := rfl
  rw [hserved, runSource_of_ok hp, runSource_of_ok hq]
  with_unfolding_all rfl

/-- The fault of `f();` is in the line that declares `f`, and there at the minus. -/
theorem diagnostics_located_among_earlier :
    ∃ s ∈ ["f();", "function f() \x7b return -null; \x7d"],
      (⟨22, 23, 1⟩ : Span).LiesIn s ∧ ∃ t ∈ (Lexed.ofSource s).tokens, t.span = ⟨22, 23, 1⟩ := by
  have hd : Diagnostic.runtime ⟨.operandNotNumber, 22, 23, 1⟩ ∈ (((start [] .unlimited).serveAll
      [(2, .run "function f() \x7b return -null; \x7d")]).runSource 6 "f();").1.diagnostics := by
    rw [diagnostics_of_earlier_function]
    exact List.mem_singleton_self _
  exact (diagnostics_located_among [(2, "function f() \x7b return -null; \x7d")] 6 "f();" []
    .unlimited _ hd).2.2 rfl

/-- The span of a diagnostic can end far behind the source that was run. -/
theorem diagnostic_behind_end :
    ∃ d ∈ (((start [] .unlimited).serveAll
        [(2, .run "function f() \x7b return -null; \x7d")]).runSource 6 "f();").1.diagnostics,
      "f();".utf8ByteSize < d.span.stop := by
  rw [diagnostics_of_earlier_function]
  exact ⟨_, List.mem_singleton_self _, by decide⟩

end Machine

end Treewalk
