import Treewalk.Proofs.Grammar.Blame
import Treewalk.Proofs.Session.Location

/-!
# The diagnostics of a source in order

A source that is rejected comes with what the lexer and what the parser have found, sorted by where
it is. No two of these are at the same place: the pieces of a source start at different places, a
piece stands for a token or for a lexical fault, and no token is blamed twice. Only the end of the
source can be blamed more than once, by the parser alone, and these notes come last and in the order
in which they were made (`Program.diagnostics_merged`).
-/

namespace Treewalk

namespace Piece

/-- Pieces are tokens or have something wrong with them, but not both, so they are among the pieces
    without one being counted twice. -/
theorem filter_isFaulty_append_filter_isToken (pieces : List (Piece × Span)) :
    (pieces.filter (·.1.isFaulty) ++ pieces.filter (·.1.isToken)).Subperm pieces := by
  have htoken : (pieces.filter (·.1.isToken)).Sublist (pieces.filter (!·.1.isFaulty)) := by
    refine List.monotone_filter_right pieces fun located h => ?_
    obtain ⟨piece, span⟩ := located
    cases piece <;> first | rfl | exact nomatch h
  exact (htoken.append_left _).subperm.trans (List.filter_append_perm (·.1.isFaulty) pieces).subperm

end Piece

namespace Lexed

variable {source : String}

/-- The pieces of a source start at different places. -/
theorem nodup_starts (source : String) :
    ((Piece.locate .start (Piece.all source.toList)).map (·.2.start)).Nodup := by
  rw [List.Nodup, List.pairwise_map]
  exact (pairwise_pieces source).imp Nat.ne_of_lt

/-- Lexical faults start where the faulty pieces do. -/
theorem starts_diagnostics (source : String) :
    (ofSource source).diagnostics.map (·.span.start) =
      ((Piece.locate .start (Piece.all source.toList)).filter (·.1.isFaulty)).map (·.2.start) := by
  refine ((Piece.forall₂_reports (p := .start) (Piece.tiles_all source.toList)).map_eq ?_).symm
  intro located d h
  cases h <;> rfl

/-- Tokens start where the pieces do that stand for them. -/
theorem starts_front (source : String) :
    (Parsed.front (ofSource source).tokens).map (·.span.start) =
      ((Piece.locate .start (Piece.all source.toList)).filter (·.1.isToken)).map (·.2.start) := by
  rw [front_tokens, ofSource, ofText, List.dropLast_concat]
  refine ((Piece.forall₂_gives (p := .start) (Piece.tiles_all source.toList)).map_eq ?_).symm
  intro located t h
  exact congrArg (fun located => located.2.start) h

/-- Tokens and lexical faults are at different places. -/
theorem starts_subperm (source : String) :
    ((ofSource source).diagnostics.map (·.span.start) ++
        (Parsed.front (ofSource source).tokens).map (·.span.start)).Subperm
      ((Piece.locate .start (Piece.all source.toList)).map (·.2.start)) := by
  rw [starts_diagnostics, starts_front, ← List.map_append]
  exact (Piece.filter_isFaulty_append_filter_isToken _).map_any _

/-- What starts where a piece does starts in front of the end of the source. -/
theorem start_lt_size {start : Nat} (h : start ∈
    (Piece.locate .start (Piece.all source.toList)).map (·.2.start)) : start <
      source.utf8ByteSize := by
  obtain ⟨located, hmem, rfl⟩ := List.mem_map.1 h
  rw [← offset_endOf]
  exact start_lt_of_mem_pieces hmem

/-- The end mark that the parser sees is the one behind the source. -/
theorem stopOf_tokens (source : String) :
    Parsed.stopOf (ofSource source).tokens =
      .eof source.utf8ByteSize (endOf source.toList).line := by
  have hnone : ((Piece.locate .start (Piece.all source.toList)).filterMap Piece.token?).find?
      (·.kind == .eof) = none := by
    rw [List.find?_eq_none]
    intro t ht heof
    exact (Piece.token_of_mem ht).2.1 (eq_of_beq heof)
  rw [Parsed.stopOf, ofSource, ofText, List.find?_append, hnone, offset_endOf]
  rfl

end Lexed

/-! ## Both lists together -/

/-- What the parser makes of a source. -/
def Parsed.ofSource (source : String) : Parsed := ofTokens (Lexed.ofSource source).tokens

/-- The diagnostic is one of the parser about the end of a source. -/
structure Diagnostic.AtEnd (source : String) (d : Diagnostic) : Prop where
  phase : d.phase = .syntactic
  near : d.near = some "end"
  start : d.span.start = source.utf8ByteSize
  stop : d.span.stop = source.utf8ByteSize

namespace Program

variable {source : String} {d : Diagnostic}

/-- The lexer has nothing to say about the end of a source. -/
theorem start_lt_of_mem_lexed (h : d ∈ (Lexed.ofSource source).diagnostics) :
    d.span.start < source.utf8ByteSize :=
  Lexed.start_lt_size <| (Lexed.starts_subperm source).subset <|
    List.mem_append_left _ (List.mem_map_of_mem h)

/-- The parser complains about a token in front of the end of a source, or about the end. -/
theorem start_lt_or_atEnd (h : d ∈ (Parsed.ofSource source).diagnostics) :
    d.span.start < source.utf8ByteSize ∨ d.AtEnd source := by
  obtain ⟨blamed, ends, hnotes, hsub⟩ := Parsed.exists_blamed (Lexed.ofSource source).tokens
  obtain ⟨t, ht, fault, rfl⟩ := hnotes.exists_mem h
  rw [Lexed.stopOf_tokens] at hsub
  obtain hfront | hend := List.mem_append.1 (hsub.subset ht)
  · left
    exact Lexed.start_lt_size <| (Lexed.starts_subperm source).subset <|
      List.mem_append_right _ (List.mem_map_of_mem (f := (·.span.start)) hfront)
  · right
    rw [List.eq_of_mem_replicate hend]
    exact ⟨rfl, rfl, rfl, rfl⟩

/-- All diagnostics together start at different places, those about the end left aside. -/
theorem starts_subperm (source : String) :
    ∃ ends : Nat,
      (((Lexed.ofSource source).diagnostics ++ (Parsed.ofSource source).diagnostics).map
        (·.span.start)).Subperm
        ((Piece.locate .start (Piece.all source.toList)).map (·.2.start) ++
          List.replicate ends source.utf8ByteSize) := by
  obtain ⟨blamed, ends, hnotes, hsub⟩ := Parsed.exists_blamed (Lexed.ofSource source).tokens
  rw [Lexed.stopOf_tokens] at hsub
  have hstarts : (Parsed.ofSource source).diagnostics.map (·.span.start) =
      blamed.map (·.span.start) := by
    refine hnotes.map_eq ?_
    rintro d t ⟨fault, rfl⟩
    rfl
  -- The parser blames different tokens, and beyond that only the end mark.
  have hblamed := hsub.map_any (·.span.start)
  rw [List.map_append, List.map_replicate, ← hstarts] at hblamed
  refine ⟨ends, ?_⟩
  rw [List.map_append]
  refine ((List.Subperm.refl _).append hblamed).trans ?_
  rw [← List.append_assoc]
  exact (Lexed.starts_subperm source).append (List.Subperm.refl _)

/-- No two diagnostics in front of the end of a source start at the same place. -/
theorem starts_ne (source : String) :
    (((Lexed.ofSource source).diagnostics ++ (Parsed.ofSource source).diagnostics).filter
      (·.span.start < source.utf8ByteSize)).Pairwise fun d e => d.span.start ≠ e.span.start := by
  obtain ⟨ends, hsub⟩ := starts_subperm source
  have hends : (List.replicate ends source.utf8ByteSize).filter (· < source.utf8ByteSize) = [] := by
    rw [List.filter_eq_nil_iff]
    intro start hstart hlt
    rw [List.eq_of_mem_replicate hstart] at hlt
    exact Nat.lt_irrefl _ (of_decide_eq_true hlt)
  have hwithin := hsub.filter (· < source.utf8ByteSize)
  rw [List.filter_append, hends, List.append_nil, List.filter_map] at hwithin
  have hnodup := (Lexed.nodup_starts source).of_subperm (hwithin.trans List.filter_sublist.subperm)
  rwa [List.Nodup, List.pairwise_map] at hnodup

/-- No diagnostic starts behind the end of a source. -/
theorem start_le_size (h : d ∈ (Lexed.ofSource source).diagnostics ++
    (Parsed.ofSource source).diagnostics) : d.span.start ≤ source.utf8ByteSize := by
  obtain hlexed | hparsed := List.mem_append.1 h
  · exact Nat.le_of_lt (start_lt_of_mem_lexed hlexed)
  · obtain hlt | hend := start_lt_or_atEnd hparsed
    · exact Nat.le_of_lt hlt
    · exact Nat.le_of_eq hend.start

/-- Only the parser has something to say about the end of a source. -/
theorem filter_start_eq_size (source : String) :
    ((Lexed.ofSource source).diagnostics ++ (Parsed.ofSource source).diagnostics).filter
        (·.span.start = source.utf8ByteSize) =
      (Parsed.ofSource source).diagnostics.filter (·.span.start = source.utf8ByteSize) := by
  have hlexed : (Lexed.ofSource source).diagnostics.filter (·.span.start = source.utf8ByteSize) =
      [] := by
    rw [List.filter_eq_nil_iff]
    intro d hd hstart
    exact Nat.ne_of_lt (start_lt_of_mem_lexed hd) (of_decide_eq_true hstart)
  rw [List.filter_append, hlexed, List.nil_append]

/-- **Diagnostics are complete, in order and different.** A source that is rejected comes with all
    diagnostics of the lexer and of the parser. Those that start in front of its end stand first,
    each starting behind the one in front of it. The others are behind them, all of the parser and
    about the end, and in the order in which the parser has made them. -/
theorem diagnostics_merged {source : String} {ds : List Diagnostic}
    (h : ofSource source = .error ds) :
    ds.Perm ((Lexed.ofSource source).diagnostics ++ (Parsed.ofSource source).diagnostics) ∧
      ∃ within behind : List Diagnostic, ds = within ++ behind ∧
        (within.Pairwise fun d e => d.span.start < e.span.start) ∧
        (∀ d ∈ within, d.span.start < source.utf8ByteSize) ∧
        behind = (Parsed.ofSource source).diagnostics.filter (·.span.start = source.utf8ByteSize) ∧
        ∀ d ∈ behind, d.AtEnd source := by
  rw [ofSource] at h
  split at h
  · cases h
  obtain rfl := Except.error.inj h
  refine ⟨List.mergeSort_perm .., ?_⟩
  -- No two start at one place in front of the end, so all but those at the end are in strict order
  -- after sorting.
  obtain ⟨within, hsorted, hstrict, hbefore⟩ :=
    List.mergeSort_eq_append (starts_ne source) fun d => start_le_size
  rw [filter_start_eq_size] at hsorted
  refine ⟨within, _, hsorted, hstrict, hbefore, rfl, fun d hd => ?_⟩
  obtain ⟨hparsed, hstart⟩ := List.mem_filter.1 hd
  obtain hlt | hend := start_lt_or_atEnd hparsed
  · exact absurd (of_decide_eq_true hstart) (Nat.ne_of_lt hlt)
  · exact hend

/-- The inner one of two invalid targets is noted first, but it stands behind the outer one and
    behind a stray character. Neither the block is closed nor the statement in it, which are two
    faults at the end. -/
theorem diagnostics_merged_invalid_targets :
    let source := "null = @ true = x;\n\x7b print"
    let outer : Diagnostic := .syntactic (.plain .eq "=" ⟨5, 6, 1⟩) .assignmentTarget
    let stray : Diagnostic := .lexical ⟨7, 8, 1⟩ (.unsupportedCharacter '@')
    let inner : Diagnostic := .syntactic (.plain .eq "=" ⟨14, 15, 1⟩) .assignmentTarget
    let ends : List Diagnostic :=
      [.syntactic (.eof 26 2) .expression, .syntactic (.eof 26 2) .braceAfterBlock]
    (Parsed.ofSource source).diagnostics = inner :: outer :: ends ∧
      ofSource source = .error (outer :: stray :: inner :: ends) ∧ ∀ d ∈ ends, d.AtEnd source := by
  intro source outer stray inner ends
  -- The parser notes the inner target first, and the fault of the lexer comes between the two after
  -- sorting.
  have hlexed : (Lexed.ofSource source).diagnostics = [stray] := by decide +kernel
  have hparsed : (Parsed.ofTokens (Lexed.ofSource source).tokens).diagnostics = inner :: outer ::
    ends := by decide +kernel
  have hrejected : ofSource source = .error (outer :: stray :: inner :: ends) := by
    rw [ofSource, hlexed, hparsed]
    simp [List.mergeSort, List.MergeSort.Internal.splitInTwo, outer, stray, inner, ends,
      Diagnostic.syntactic, Diagnostic.lexical, Token.plain, Token.eof, Span.point]
  obtain ⟨-, within, behind, -, -, -, hbehind, hend⟩ := diagnostics_merged hrejected
  have hends : behind = ends := by
    rw [hbehind, Parsed.ofSource, hparsed]
    rfl
  exact ⟨hparsed, hrejected, hends ▸ hend⟩

end Program

end Treewalk
