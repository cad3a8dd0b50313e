import Treewalk.Proofs.Token.Tiling

/-!
# Where tokens and lexical faults are

A span lies in a source if it is that of a part of the source and has the line on which this part
starts, one more than there are line breaks in front of it. The spans of all tokens of a source lie
in it, the end mark included (`Lexed.liesIn_of_mem_tokens`), and so do those of its lexical
diagnostics (`Lexed.liesIn_of_mem_diagnostics`).
-/

namespace Treewalk

/-- The span is that of a part of the source, with the line on which the part starts. The parts of a
    text are made of whole characters, so both offsets are between two of them, or at an end of the
    source. -/
def Span.LiesIn (span : Span) (source : String) : Prop :=
  ∃ before part behind : String, source = before ++ part ++ behind ∧
    span.start = before.utf8ByteSize ∧ span.stop = (before ++ part).utf8ByteSize ∧
    span.line = 1 + before.toList.count '\n'

namespace Span.LiesIn

variable {span : Span} {source : String}

/-- A span in a source does not stop before it starts. -/
theorem start_le_stop (h : span.LiesIn source) : span.start ≤ span.stop := by
  obtain ⟨before, part, behind, -, hstart, hstop, -⟩ := h
  rw [hstart, hstop, String.utf8ByteSize_append]
  exact Nat.le_add_right _ _

/-- A span in a source does not stop behind its end. -/
theorem stop_le_size (h : span.LiesIn source) : span.stop ≤ source.utf8ByteSize := by
  obtain ⟨before, part, behind, rfl, -, hstop, -⟩ := h
  simp only [hstop, String.utf8ByteSize_append]
  exact Nat.le_add_right _ _

end Span.LiesIn

/-- A part of a source has a span in it. -/
theorem Place.liesIn_spanOf {source : String} {before part behind : List Char}
    (h : source.toList = before ++ part ++ behind) :
    ((start.after before).spanOf part).LiesIn source := by
  obtain ⟨hsource, hstart, hstop⟩ := split_spanOf h
  refine ⟨_, _, _, hsource, hstart, hstop, ?_⟩
  rw [String.toList_ofList]
  rfl

namespace Lexed

variable {source : String}

/-- The spans of pieces lie in the source. -/
theorem liesIn_of_mem_locate {located : Piece × Span}
    (h : located ∈ Piece.locate .start (Piece.all source.toList)) : located.2.LiesIn source := by
  obtain ⟨before, behind, hsource, hspan⟩ := Piece.exists_text_of_mem_locate h
  rw [hspan]
  exact Place.liesIn_spanOf hsource

/-- The span of the end mark is the empty one behind the source. -/
theorem liesIn_eof (source : String) :
    (Token.eof (endOf source.toList).offset (endOf source.toList).line).span.LiesIn source :=
  Place.liesIn_spanOf (show source.toList = source.toList ++ [] ++ [] by simp)

/-- The line of a token that a piece stands for is that of its span. -/
theorem line_of_token? {located : Piece × Span} {t : Token} (h : Piece.token? located = some t) :
    t.line = t.span.line := by
  unfold Piece.token? at h
  split at h
  · obtain ⟨value, -, rfl⟩ := Option.map_eq_some_iff.1 h
    rfl
  · obtain rfl := Option.some.inj h
    rfl
  · obtain rfl := Option.some.inj h
    rfl
  · exact nomatch h

/-- Every token of a source lies in it, on the line that the token has. -/
theorem liesIn_of_mem_tokens {t : Token} (h : t ∈ (ofSource source).tokens) :
    t.span.LiesIn source ∧ t.line = t.span.line := by
  obtain h | h := List.mem_append.1 h
  · obtain ⟨located, hmem, htoken⟩ := List.mem_filterMap.1 h
    have hspan : located.2 = t.span := congrArg Prod.snd (Piece.gives_of_token? htoken)
    exact ⟨hspan ▸ liesIn_of_mem_locate hmem, line_of_token? htoken⟩
  · obtain rfl := List.mem_singleton.1 h
    exact ⟨liesIn_eof source, rfl⟩

/-- Every lexical diagnostic of a source lies in it. -/
theorem liesIn_of_mem_diagnostics {d : Diagnostic} (h : d ∈ (ofSource source).diagnostics) :
    d.span.LiesIn source ∧ d.line = d.span.line ∧ d.phase = .lexical := by
  obtain ⟨located, hmem, hdiagnostic⟩ := List.mem_filterMap.1 h
  obtain ⟨fault, -, rfl⟩ := Option.map_eq_some_iff.1 hdiagnostic
  exact ⟨liesIn_of_mem_locate hmem, rfl, rfl⟩

end Lexed

end Treewalk
