import Treewalk.Proofs.Grammar.Following
import Treewalk.Proofs.Grammar.Isolation

/-!
# Nothing behind the first end mark is seen

Two marks can end a list of tokens: one that is among them, and one that is put behind the last of
them. What a parser makes of a list depends on what is in front of the first mark and on the mark
itself (`Parsed.ofTokens_congr`). So it makes no difference what comes behind a mark, nor which of
the two it is.

The main statement is `Parsed.ofTokens_up_to_end`.
-/

namespace Treewalk.Parsed

variable {tokens more : List Token} {e last : Token}

/-- Lists with the same tokens in front of the same mark are parsed alike. -/
theorem ofTokens_congr (hfront : front tokens = front more) (hstop : stopOf tokens = stopOf more) :
    ofTokens tokens = ofTokens more := by
  rw [ofTokens_eq, hfront, hstop, ← ofTokens_eq]

/-- In front of an end mark there is nothing. -/
theorem front_cons_of_eof (he : e.kind = .eof) (more : List Token) : front (e :: more) = [] :=
  List.takeWhile_cons_of_neg (by simp [he])

/-- An end mark ends a list whatever is behind it. -/
theorem stopOf_cons_of_eof (he : e.kind = .eof) (more : List Token) : stopOf (e :: more) = e := by
  have hfirst : (e :: more).find? (·.kind == .eof) = some e :=
    List.find?_cons_of_pos (beq_iff_eq.2 he)
  rw [stopOf, hfirst]

/-- Without an end mark, the list ends where its last token does. -/
theorem stopOf_of_getLast? (h : ∀ t ∈ tokens, t.kind ≠ .eof) (hlast : tokens.getLast? = some last) :
    stopOf tokens = .eof last.span.stop last.line := by
  have hnone : tokens.find? (·.kind == .eof) = none :=
    List.find?_eq_none.2 fun t ht heof => h t ht (beq_iff_eq.1 heof)
  rw [stopOf, hnone, hlast]

/-- What is behind the first end mark is not seen. -/
theorem ofTokens_append_eof (h : ∀ t ∈ tokens, t.kind ≠ .eof) (he : e.kind = .eof)
    (more : List Token) : ofTokens (tokens ++ e :: more) = ofTokens (tokens ++ [e]) := by
  apply ofTokens_congr
  · rw [front_append h, front_append h, front_cons_of_eof he, front_cons_of_eof he]
  · rw [stopOf_append h (List.cons_ne_nil e more), stopOf_append h (List.cons_ne_nil e []),
      stopOf_cons_of_eof he, stopOf_cons_of_eof he]

/-- The end mark that is put behind the last token might as well be among them. -/
theorem ofTokens_eq_append_eof (h : ∀ t ∈ tokens, t.kind ≠ .eof)
    (hlast : tokens.getLast? = some last) :
    ofTokens tokens = ofTokens (tokens ++ [.eof last.span.stop last.line]) := by
  apply ofTokens_congr
  · have hfront : front tokens = tokens := by simpa [front] using front_append h []
    rw [hfront, front_append h, front_cons_of_eof rfl, List.append_nil]
  · rw [stopOf_of_getLast? h hlast, stopOf_append h (List.cons_ne_nil _ []), stopOf_cons_of_eof rfl]

/-- **A parser sees the tokens up to the first end mark, and nothing else.** With enough fuel, a
    parser with a cursor in all tokens comes to an end, and makes of them what they are parsed as.
    This does not depend on what is behind the first end mark, and a list that has none is parsed as
    if there was one where its last token ends. -/
theorem ofTokens_up_to_end :
    (∀ (tokens : List Token) (fuel : Nat), 30 * tokens.length + 23 ≤ fuel →
        byCursor fuel tokens = some (ofTokens tokens)) ∧
      (∀ (tokens : List Token) (e : Token) (more : List Token), (∀ t ∈ tokens, t.kind ≠ .eof) →
        e.kind = .eof →
        ofTokens (tokens ++ e :: more) = ofTokens (tokens ++ [e])) ∧
      ∀ (tokens : List Token) (last : Token), (∀ t ∈ tokens, t.kind ≠ .eof) →
        tokens.getLast? = some last →
        ofTokens tokens = ofTokens (tokens ++ [.eof last.span.stop last.line]) := by
  refine ⟨fun tokens fuel hfuel => byCursor_eq tokens hfuel, ?_, ?_⟩
  · intro tokens e more h he
    exact ofTokens_append_eof h he more
  · intro tokens last h hlast
    exact ofTokens_eq_append_eof h hlast

/-- In `{ print`, the block is not closed by the brace behind an end mark: the value and the brace
    are missed at the mark, whether it is among the tokens or behind them. -/
theorem ofTokens_up_to_end_in_open_block :
    ofTokens
        ([.plain .lBrace "\x7b" ⟨0, 1, 1⟩, .plain .printWord "print" ⟨2, 7, 1⟩] ++
          .eof 7 1 :: [.plain .rBrace "\x7d" ⟨7, 8, 1⟩]) =
      ⟨⟨[]⟩, [.syntactic (.eof 7 1) .expression, .syntactic (.eof 7 1) .braceAfterBlock]⟩ ∧
    byCursor 83 [.plain .lBrace "\x7b" ⟨0, 1, 1⟩, .plain .printWord "print" ⟨2, 7, 1⟩] =
      some ⟨⟨[]⟩, [.syntactic (.eof 7 1) .expression, .syntactic (.eof 7 1) .braceAfterBlock]⟩ := by
  obtain ⟨hcursor, hbehind, hwithout⟩ := ofTokens_up_to_end
  constructor
  · rw [hbehind _ _ _ (by decide) rfl]
    cbv
  · rw [hcursor _ 83 (by decide), hwithout _ (.plain .printWord "print" ⟨2, 7, 1⟩) (by decide) rfl]
    cbv

end Treewalk.Parsed
