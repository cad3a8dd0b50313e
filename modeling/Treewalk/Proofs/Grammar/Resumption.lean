import Treewalk.Proofs.Grammar.Soundness
import Treewalk.Token.Lexed

/-!
# Where reading goes on after a fault

If the grammar is stuck in a declaration, recovery drops the token that the fault is at, and then
looks for a place to go on from: behind a semicolon, or in front of a token that can only start a
statement (`Grammar.Resumes`). So the tokens that it drops behind the first one start no statement.

The first one may. A statement that follows a missing semicolon starts with the very token that is
not the semicolon, and it is lost with this token (`Grammar.statement_lost_behind_missing_semi`).
-/

namespace Treewalk.Grammar

/-- Recovery in front of `left` drops these tokens and goes on in front of `rest`. It drops one
    token in any case, and others up to the first semicolon or the first token that starts a
    statement. -/
structure Resumes (left dropped rest : List Token) : Prop where
  split : left = dropped ++ rest
  first : left ≠ [] → dropped ≠ []
  /-- No token behind the first one starts a statement. -/
  others : ∀ t ∈ dropped.tail, t.kind.startsStatement = false
  /-- No token in front of the last one is a semicolon. -/
  semis : ∀ t ∈ dropped.dropLast, t.kind ≠ .semi
  stops : rest = [] ∨ (∃ t, dropped.getLast? = some t ∧ t.kind = .semi) ∨
    ∃ t, rest.head? = some t ∧ t.kind.startsStatement

namespace Resumes

variable {left dropped rest : List Token}

/-- Where there is nothing left, there is nothing to drop. -/
theorem nil : Resumes [] [] [] where
  split := rfl
  first h := absurd rfl h
  others := List.forall_mem_nil _
  semis := List.forall_mem_nil _
  stops := .inl rfl

/-- The first token is dropped, and reading goes on right behind it. -/
theorem single {t : Token} (hstops : rest = [] ∨ t.kind = .semi ∨ ∃ u, rest.head? = some u ∧
    u.kind.startsStatement) : Resumes (t :: rest) [t] rest where
  split := rfl
  first _ := List.cons_ne_nil t []
  others := List.forall_mem_nil _
  semis := List.forall_mem_nil _
  stops := hstops.imp_right fun h => h.imp_left fun hsemi => ⟨t, rfl, hsemi⟩

/-- A token is dropped in front of others that are. -/
theorem cons {t u : Token} (h : Resumes left (u :: dropped) rest) (ht : t.kind ≠ .semi)
    (hu : u.kind.startsStatement = false) : Resumes (t :: left) (t :: u :: dropped) rest where
  split := congrArg (t :: ·) h.split
  first _ := List.cons_ne_nil t _
  others := List.forall_mem_cons.2 ⟨hu, h.others⟩
  semis := List.forall_mem_cons.2 ⟨ht, h.semis⟩
  stops := by
    have hlast : (t :: u :: dropped).getLast? = (u :: dropped).getLast? := by simp
    rw [hlast]
    exact h.stops

/-- A token that starts a statement is dropped only where it is the first one. -/
theorem exists_starts_iff (h : Resumes left dropped rest) :
    (∃ t ∈ dropped, t.kind.startsStatement) ↔
      ∃ t, left.head? = some t ∧ t.kind.startsStatement := by
  obtain ⟨rfl, hfirst, hothers, -, -⟩ := h
  -- Only the first of the dropped tokens may start a statement, since the others are passed over
  -- for the reason that they do not.
  cases dropped with
  | nil =>
    have hnil : rest = [] := by simpa using hfirst
    simp [hnil]
  | cons u dropped =>
    constructor
    · rintro ⟨t, ht, hstarts⟩
      obtain rfl | htail := List.mem_cons.1 ht
      · exact ⟨t, rfl, hstarts⟩
      · rw [hothers t htail] at hstarts
        exact absurd hstarts Bool.false_ne_true
    · rintro ⟨t, ht, hstarts⟩
      obtain rfl : u = t := Option.some.inj ht
      exact ⟨u, List.mem_cons_self, hstarts⟩

end Resumes

/-- Behind a token that is dropped, others are dropped up to the place where reading goes on. -/
theorem exists_resumes_cons (previous : Token) (tokens : List Token) :
    ∃ dropped, Resumes (previous :: tokens) (previous :: dropped)
      (resumeBehind previous tokens) := by
  fun_induction resumeBehind previous tokens with
  | case1 previous t rest hstop =>
    refine ⟨[], .single (.inr ?_)⟩
    exact hstop.imp_right fun hstarts => ⟨t, rfl, hstarts⟩
  | case2 previous t rest hgo ih =>
    obtain ⟨dropped, hdropped⟩ := ih
    obtain ⟨hsemi, hstarts⟩ := not_or.1 hgo
    exact ⟨t :: dropped, hdropped.cons hsemi (Bool.eq_false_iff.2 hstarts)⟩
  | case3 previous => exact ⟨[], .single (.inl rfl)⟩

/-- Recovery drops tokens up to the place where reading goes on. -/
theorem exists_resumes (left : List Token) : ∃ dropped, Resumes left dropped (resume left) := by
  cases left with
  | nil => exact ⟨[], .nil⟩
  | cons t rest =>
    obtain ⟨dropped, hdropped⟩ := exists_resumes_cons t rest
    exact ⟨t :: dropped, hdropped⟩

/-- **Recovery goes on behind a semicolon or in front of a statement.** If the grammar is stuck in a
    declaration, there is one note more, at the first of the tokens that are left, and the
    declaration is dropped. So are the first token and others behind it, up to the first semicolon
    or the first token that starts a statement. A token that starts a statement is dropped if and
    only if it is the one that the fault is at. -/
theorem stuck_resumes {stop t : Token} {rest left : List Token} {fault : SyntaxFault}
    {notes : List Diagnostic}
    {fits : left.length ≤ rest.length + 1}
    (h : declared stop t rest = .stuck fault left notes fits) :
    (declaration stop t rest).statement? = none ∧
      (declaration stop t rest).notes = notes ++ [blame stop left fault] ∧
      ∃ dropped, Resumes left dropped (declaration stop t rest).rest ∧
        ((∃ u ∈ dropped, u.kind.startsStatement) ↔
          ∃ u, left.head? = some u ∧ u.kind.startsStatement) := by
  obtain ⟨dropped, hdropped⟩ := exists_resumes left
  rw [declaration, h]
  exact ⟨rfl, rfl, dropped, hdropped, hdropped.exists_starts_iff⟩

/-- In `variable = y print z;` the fault is at the equals sign, and reading goes on in front of
    `print`. -/
theorem stuck_resumes_in_front_of_print :
    let printed : List Token :=
      [.plain .printWord "print" ⟨13, 18, 1⟩, .plain .identifier "z" ⟨19, 20, 1⟩,
        .plain .semi ";" ⟨20, 21, 1⟩]
    let left : List Token :=
      .plain .eq "=" ⟨9, 10, 1⟩ :: .plain .identifier "y" ⟨11, 12, 1⟩ :: printed
    let first := declaration (.eof 21 1) (.plain .variableWord "variable" ⟨0, 8, 1⟩) left
    first.rest = printed ∧ first.notes = [.syntactic (.plain .eq "=" ⟨9, 10, 1⟩) .variableName] ∧
      ∃ dropped, Resumes left dropped first.rest ∧ ¬ ∃ u ∈ dropped, u.kind.startsStatement := by
  intro printed left first
  -- The declaration is stuck at the equals sign, where the name should be.
  have hstuck : declared (.eof 21 1) (.plain .variableWord "variable" ⟨0, 8, 1⟩) left =
      .stuck .variableName left [] (Nat.le_succ _) := by
    rw [declared]
    rfl
  have hrest : first.rest = printed := by
    show (declaration _ _ left).rest = printed
    rw [declaration, hstuck]
    rfl
  obtain ⟨-, hnotes, dropped, hdropped, hstarts⟩ := stuck_resumes hstuck
  refine ⟨hrest, hnotes, dropped, hdropped, ?_⟩
  rw [hstarts]
  rintro ⟨u, hu, hkind⟩
  cases hu
  exact absurd hkind (by decide)

/-- In `print x print y;` the first statement lacks its semicolon. The fault is at the second
    `print`, which recovery drops with all that is behind it, and no statement is left. -/
theorem statement_lost_behind_missing_semi :
    ∃ t rest fault left notes fits dropped,
      Parsed.front (Lexed.ofSource "print x print y;").tokens = t :: rest ∧
        declared (.eof 16 1) t rest = .stuck fault left notes fits ∧
        left = dropped ++ (declaration (.eof 16 1) t rest).rest ∧
        (∃ u ∈ dropped, u.kind.startsStatement ∧ u.kind ≠ .forWord) ∧
        (Parsed.ofTokens (Lexed.ofSource "print x print y;").tokens).program.statements = [] := by
  let left : List Token :=
    [.plain .printWord "print" ⟨8, 13, 1⟩, .plain .identifier "y" ⟨14, 15, 1⟩,
      .plain .semi ";" ⟨15, 16, 1⟩]
  have hstuck : declared (.eof 16 1) (.plain .printWord "print" ⟨0, 5, 1⟩)
    (.plain .identifier "x" ⟨6, 7, 1⟩ :: left) =
      .stuck .semiAfterValue left [] (by decide) := by with_unfolding_all rfl
  refine ⟨_, _, _, left, _, _, left,
    by decide +kernel, hstuck, ?_, ⟨_, List.mem_cons_self, by decide, by decide⟩,
    by with_unfolding_all rfl⟩
  rw [declaration, hstuck]
  rfl

end Treewalk.Grammar
