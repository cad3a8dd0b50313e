import Treewalk.Proofs.Token.Location

/-!
# Lines from a running counter

A lexer that counts lines as it goes needs one counter only. It is moved on where a line break is
passed, which is either a piece by itself or in a string. When a token or a fault is looked at, the
counter has passed it already, so the line breaks of its text are taken back (`Piece.lineOf?`).
`Lexed.counted?` works like this, and stops if more would be taken back than has been counted.

It never stops, since no other piece has a line break in it (`Piece.Leads.cases_of_newline_mem`):
the counter is always the line of the place that has been reached, and what is taken back is what
has just been added (`Lexed.counted?_of_tiles`). The line of a token is the number of line breaks in
front of it, and one more (`Lexed.lines_exact`).
-/

namespace Treewalk

namespace Piece

/-! ## Counting on and taking back -/

/-- The counter of lines behind a piece. Only line breaks and strings move it on. -/
def countOn (counter : Nat) : Piece → Nat
  | newline => counter + 1
  | token .string text | unterminated text => counter + text.count '\n'
  | _ => counter

/-- The line of a piece that the counter has passed. There is none if the counter would be below one
    without the line breaks of the piece. -/
def lineOf? (counter : Nat) (piece : Piece) : Option Nat :=
  if piece.text.count '\n' < counter then some (counter - piece.text.count '\n') else none

/-- No piece with a line break in it leads a text but a line break or a string. -/
theorem Leads.cases_of_newline_mem {piece : Piece} {front : List Char} (h : piece.Leads front)
    (hmem : '\n' ∈ piece.text) :
    piece = .newline ∨ (∃ text, piece = .token .string text) ∨
      ∃ text, piece = .unterminated text := by
  cases h with
  | longest hruled _ _ _ =>
    cases hruled with
    | newline => exact .inl rfl
    | string _ => exact .inr (.inl ⟨_, rfl⟩)
    | unterminated _ => exact .inr (.inr ⟨_, rfl⟩)
    | blanks _ hblank => exact absurd (hblank _ hmem) (by decide)
    | comment hbody =>
      refine absurd ?_ hbody
      simpa [Piece.text] using hmem
    | @fixed kind _ =>
      have hkind : '\n' ∉ kind.text.toList := by cases kind <;> decide
      exact absurd hmem hkind
    | whole hdigits => exact absurd (hdigits.2 _ hmem) (by decide)
    | decimal hdigits hfraction =>
      obtain hmem | hmem := List.mem_append.1 hmem
      · exact absurd (hdigits.2 _ hmem) (by decide)
      · obtain hmem | hmem := List.mem_cons.1 hmem
        · exact absurd hmem (by decide)
        · exact absurd (hfraction.2 _ hmem) (by decide)
    | identifier hfirst hothers =>
      obtain rfl | hmem := List.mem_cons.1 hmem
      · exact absurd hfirst (by decide)
      · exact absurd (hothers _ hmem) (by decide)
  | @stray c rest hnone =>
    -- A line break would have been taken for one.
    obtain rfl := List.mem_singleton.1 hmem
    exact absurd ⟨rest, rfl⟩ (hnone .newline .newline)

/-- The counter is moved on by all line breaks of a piece that leads a text. -/
theorem Leads.countOn_eq {piece : Piece} {front : List Char} (h : piece.Leads front)
    (counter : Nat) : piece.countOn counter = counter + piece.text.count '\n' := by
  by_cases hmem : '\n' ∈ piece.text
  · obtain rfl | ⟨text, rfl⟩ | ⟨text, rfl⟩ := h.cases_of_newline_mem hmem <;> rfl
  · have hcount := List.count_eq_zero.2 hmem
    rw [hcount]
    unfold countOn
    split
    · exact absurd (List.mem_singleton_self _) hmem
    · exact congrArg (counter + ·) hcount
    · exact congrArg (counter + ·) hcount
    · rfl

/-- What has been added for a piece can be taken back, and leaves the line on which the piece
    starts. -/
theorem lineOf?_after {line : Nat} (hline : 0 < line) (piece : Piece) :
    piece.lineOf? (line + piece.text.count '\n') = some line := by
  rw [lineOf?, if_pos (Nat.lt_add_of_pos_left hline), Nat.add_sub_cancel]

end Piece

namespace Lexed

/-! ## Lexing with a counter -/

/-- Lexes pieces from a place on, with a counter of lines that runs along. The counter passes a
    piece before this is looked at, and the line of a token or a fault is what the counter is
    without the line breaks of its text. Nothing comes of it if there is no such line. -/
def counted? : Place → List Piece → Option Lexed
  | p, [] => some ⟨[.eof p.offset p.line], []⟩
  | p, piece :: rest =>
    let next : Place := ⟨p.offset + Text.byteSize piece.text, piece.countOn p.line⟩
    if piece.isToken || piece.isFaulty then do
      let line ← piece.lineOf? next.line
      let others ← counted? next rest
      let located := (piece, ⟨p.offset, next.offset, line⟩)
      some ⟨(Piece.token? located).toList ++ others.tokens,
        (Piece.diagnostic? located).toList ++ others.diagnostics⟩
    else counted? next rest

/-- A piece that is not looked at makes no token and no diagnostic. -/
theorem nothing_of_skipped {piece : Piece} (h : (piece.isToken || piece.isFaulty) = false)
    (span : Span) : Piece.token? (piece, span) = none ∧ Piece.diagnostic? (piece, span) = none := by
  cases piece <;> first | exact ⟨rfl, rfl⟩ | exact nomatch h

/-- From whatever place on, the counter gives every piece of a tiling the line on which it
    starts. -/
theorem counted?_of_tiles {pieces : List Piece} {text : List Char} (h : Piece.Tiles pieces text)
    {p : Place} (hline : 0 < p.line) :
    counted? p pieces = some
      ⟨(Piece.locate p pieces).filterMap Piece.token? ++
        [.eof (p.after text).offset (p.after text).line],
        (Piece.locate p pieces).filterMap Piece.diagnostic?⟩ := by
  induction h generalizing p with
  | nil => rfl
  | @cons piece pieces rest hfirst hothers ih =>
    have hnext : (⟨p.offset + Text.byteSize piece.text, piece.countOn p.line⟩ : Place) =
        p.after piece.text := by
      rw [hfirst.countOn_eq]
      rfl
    have hothers := ih (p := p.after piece.text) (Nat.lt_of_lt_of_le hline (Nat.le_add_right _ _))
    rw [← Place.after_append] at hothers
    rw [counted?, hnext]
    -- Only pieces that are looked at go back from the line behind them; the others have nothing to
    -- place.
    cases hlooked : piece.isToken || piece.isFaulty with
    | true =>
      have hback : piece.lineOf? (p.after piece.text).line = some p.line :=
        Piece.lineOf?_after hline piece
      simp only [if_pos, hback, hothers, Option.bind_eq_bind, Option.bind_some, Piece.locate,
        List.filterMap_eq_flatMap_toList, List.flatMap_cons, List.append_assoc]
      rfl
    | false =>
      obtain ⟨htoken, hdiagnostic⟩ := nothing_of_skipped hlooked (p.spanOf piece.text)
      rw [if_neg Bool.false_ne_true, hothers, Piece.locate, List.filterMap_cons_none htoken,
        List.filterMap_cons_none hdiagnostic]

/-- **Lines are exact.** Every token of a source has the line of its span, the end mark as well, and
    this is the number of line breaks in front of its first byte and one more. A counter that runs
    along gives all tokens and diagnostics the same lines, and is never below one when line breaks
    are taken back. -/
theorem lines_exact (source : String) :
    (∀ t ∈ (ofSource source).tokens, t.line = t.span.line ∧
      ∃ before behind : String, source = before ++ behind ∧ before.utf8ByteSize = t.span.start ∧
        t.line = 1 + before.toList.count '\n') ∧
    counted? .start (Piece.all source.toList) = some (ofSource source) := by
  constructor
  · intro t ht
    obtain ⟨⟨before, part, behind, hsource, hstart, -, hline⟩, hspan⟩ := liesIn_of_mem_tokens ht
    exact ⟨hspan, before, part ++ behind, hsource.trans String.append_assoc, hstart.symm,
      hspan.trans hline⟩
  · exact counted?_of_tiles (Piece.tiles_all source.toList) Nat.one_pos

/-- A token on the third line, behind a string with a newline, a stray character and a comment. -/
theorem lines_exact_behind_string :
    let source := "\"é\n\" @ // c\nx"
    let x : Token := .plain .identifier "x" ⟨13, 14, 3⟩
    x ∈ (ofSource source).tokens ∧
      (∃ before behind : String, source = before ++ behind ∧ before.utf8ByteSize = 13 ∧
        3 = 1 + before.toList.count '\n') ∧
      counted? .start (Piece.all source.toList) = some (ofSource source) := by
  intro source x
  -- The name is at byte 13, since the accented letter in the string has two bytes.
  have htokens : (ofSource source).tokens =
      [{ Token.plain .string "\"é\n\"" ⟨0, 5, 1⟩ with literal := some (.string "é\n") }, x,
        .eof 14 3] := by decide +kernel
  have hx : x ∈ (ofSource source).tokens := by
    rw [htokens]
    exact .tail _ (.head _)
  exact ⟨hx, ((lines_exact source).1 x hx).2, (lines_exact source).2⟩

end Lexed

end Treewalk
