import Treewalk.Proofs.Token.Tiling

/-!
# Lexing line by line

A line break ends whatever piece is in front of it, a string apart. So in a text that has all its
strings closed, a line break can be followed by anything: the pieces on either side are those that
there are without the other side (`Piece.all_append_newline`). The tokens and diagnostics behind the
line break are moved by the bytes and the lines in front of them (`Lexed.tokens_append_newline`,
`Lexed.diagnostics_append_newline`). For sources this is `Lexed.ofSource_line_by_line`, with any
other faults on either side.

A blank ends most pieces as well. Which ones is said by `Piece.EndsBefore`, and
`Piece.cut_append_of_endsBefore` is about both.
-/

namespace Treewalk

/-! ## Moving on -/

/-- A span, so many bytes and lines further on. -/
def Span.shift (bytes lines : Nat) (s : Span) : Span :=
  ⟨s.start + bytes, s.stop + bytes, s.line + lines⟩

/-- A token, so many bytes and lines further on. -/
def Token.shift (bytes lines : Nat) (t : Token) : Token :=
  { t with line := t.line + lines, span := t.span.shift bytes lines }

/-- A diagnostic, so many bytes and lines further on. -/
def Diagnostic.shift (bytes lines : Nat) (d : Diagnostic) : Diagnostic :=
  { d with line := d.line + lines, span := d.span.shift bytes lines }

/-- A place, so many bytes and lines further on. -/
def Place.shift (bytes lines : Nat) (p : Place) : Place := ⟨p.offset + bytes, p.line + lines⟩

/-- A shifted place is as far behind a text as the place is, and shifted. -/
theorem Place.after_shift (bytes lines : Nat) (p : Place) (text : List Char) :
    (p.shift bytes lines).after text = (p.after text).shift bytes lines := by
  simp only [after, shift, Nat.add_right_comm]

/-- The place behind some lines is the first place, moved on. -/
theorem Place.after_newline (text : List Char) :
    start.after (text ++ ['\n']) = start.shift (Text.byteSize text + 1) (text.count '\n' + 1) := by
  simp only [after, start, shift, Text.byteSize_append, List.count_append]
  rfl

namespace Piece

/-! ## Pieces -/

section

variable {p : Char → Bool} {c : Char} {text behind : List Char}

/-- A run ends in front of a character that is not of the class. -/
theorem run_append_cons (hc : p c = false) (text behind : List Char) :
    run p (text ++ c :: behind) = ((run p text).1, (run p text).2 ++ c :: behind) := by
  induction text with
  | nil => simp [run, hc]
  | cons d text ih =>
    simp only [run, Prod.mk.injEq] at ih ⊢
    cases hd : p d with
    | true => simp [hd, ih]
    | false => simp [hd]

/-- A run that has ended does not go on in what comes later. -/
theorem run_append_of_ne_nil (h : (run p text).2 ≠ []) (behind : List Char) :
    run p (text ++ behind) = ((run p text).1, (run p text).2 ++ behind) := by
  induction text with
  | nil => exact absurd rfl h
  | cons d text ih =>
    simp only [run, Prod.mk.injEq] at h ih ⊢
    cases hd : p d with
    | true =>
      rw [List.dropWhile_cons_of_pos hd] at h
      simp [hd, ih h]
    | false => simp [hd]

/-- Only a point can lengthen the digits that a number starts with. -/
theorem cutNumber_of_ne {whole rest : List Char} (hrun : run Char.isDigit text = (whole, c :: rest))
    (hc : c ≠ '.') : cutNumber text = (whole, c :: rest) := by
  unfold cutNumber
  rw [hrun]
  split
  · next heq => exact absurd (List.cons.inj (Prod.mk.inj heq).2).1 hc
  · next heq => exact heq.symm

/-- A number that no point follows has no fraction. -/
theorem cutNumber_of_nil {whole : List Char} (hrun : run Char.isDigit text = (whole, [])) :
    cutNumber text = (whole, []) := by
  unfold cutNumber
  rw [hrun]

/-- A number ends in front of what is neither a digit nor a point. -/
theorem cutNumber_append_cons (hdigit : c.isDigit = false) (hpoint : c ≠ '.')
    (text behind : List Char) :
    cutNumber (text ++ c :: behind) = ((cutNumber text).1, (cutNumber text).2 ++ c :: behind) := by
  have hrun := run_append_cons (p := Char.isDigit) hdigit text behind
  have hfraction (d : Char) (rest : List Char) :=
    run_append_cons (p := Char.isDigit) hdigit (d :: rest) behind
  cases htext : run Char.isDigit text with
  | mk whole rest =>
    rw [htext] at hrun
    cases rest with
    | nil => rw [cutNumber_of_ne hrun hpoint, cutNumber_of_nil htext, List.nil_append]
    | cons d rest =>
      by_cases hd : d = '.'
      · -- Behind the point comes a digit or not, and what the text is followed by is none.
        subst hd
        unfold cutNumber
        rw [hrun, htext]
        cases rest with
        | nil => simp [hdigit]
        | cons e rest =>
          simp only [List.cons_append] at hfraction ⊢
          split
          · rw [hfraction e rest]
          · rfl
      · rw [cutNumber_of_ne hrun hd, cutNumber_of_ne htext hd]
        rfl

/-- The piece that a single symbol makes. -/
def ofSymbol (c : Char) : Piece :=
  match ofSymbol? c with
  | some kind => token kind [c]
  | none => stray c

/-- A symbol is a piece by itself, unless an equals sign makes it longer. -/
theorem cutSymbol_eq_ofSymbol (h : ∀ kind, ofSymbolEq? c = some kind → text.head? ≠ some '=') :
    cutSymbol c text = (ofSymbol c, text) := by
  unfold cutSymbol ofSymbol
  split
  · next kind rest hsymbol => exact absurd rfl (h kind hsymbol)
  · cases ofSymbol? c <;> rfl

/-- A symbol ends in front of what is no equals sign. -/
theorem cutSymbol_append_cons (hequals : c ≠ '=') (first : Char) (text behind : List Char) :
    cutSymbol first (text ++ c :: behind) =
      ((cutSymbol first text).1, (cutSymbol first text).2 ++ c :: behind) := by
  -- Whether there are two characters to a symbol is decided by the next one, which may be the first
  -- behind the text.
  by_cases h : ∃ kind rest, ofSymbolEq? first = some kind ∧ text = '=' :: rest
  · obtain ⟨kind, rest, hsymbol, rfl⟩ := h
    unfold cutSymbol
    rw [hsymbol]
    rfl
  · have hsingle : ∀ kind, ofSymbolEq? first = some kind → text.head? ≠ some '=' := by
      intro kind hsymbol hhead
      obtain ⟨rest, hrest⟩ := List.head?_eq_some_iff.1 hhead
      exact h ⟨kind, rest, hsymbol, hrest⟩
    have hsingle' : ∀ kind, ofSymbolEq? first = some kind →
        (text ++ c :: behind).head? ≠ some '=' := by
      intro kind hsymbol
      cases text with
      | nil => simpa using hequals
      | cons d rest => exact hsingle kind hsymbol
    rw [cutSymbol_eq_ofSymbol hsingle, cutSymbol_eq_ofSymbol hsingle']

/-- A string that is closed is closed by the same quote whatever comes later. -/
theorem cutString_append {text : List Char} (h : ∀ body, (cutString text).1 ≠ unterminated body)
    (behind : List Char) :
    cutString (text ++ behind) = ((cutString text).1, (cutString text).2 ++ behind) := by
  cases htext : run (· != '"') text with
  | mk body rest =>
    cases rest with
    -- A string that is closed has its quote in the text, so it does not see what is behind.
    | nil =>
      rw [cutString, htext] at h
      exact absurd rfl (h _)
    | cons close rest =>
      have hne : (run (· != '"') text).2 ≠ [] := by simp [htext]
      have hrun := run_append_of_ne_nil hne behind
      rw [htext] at hrun
      unfold cutString
      rw [hrun, htext]
      rfl

/-- Blanks and line breaks. -/
def isSpace (c : Char) : Bool := isBlank c || c == '\n'

/-- The pieces that end in front of a blank or a line break. Blanks go on with a blank, a comment
    goes on to the end of its line, and a string that is not closed goes on with whatever there
    is. -/
def EndsBefore (c : Char) : Piece → Prop
  | blanks _ | comment _ => c = '\n'
  | unterminated _ => False
  | _ => True

/-- All pieces but an open string are over in front of a newline. -/
theorem endsBefore_newline {piece : Piece} (h : ∀ body, piece ≠ unterminated body) :
    piece.EndsBefore '\n' := by
  cases piece with
  | blanks _ | comment _ => rfl
  | unterminated body => exact (h body rfl).elim
  | _ => trivial

/-- A token is over in front of any space. -/
theorem endsBefore_of_isToken {piece : Piece} (h : piece.isToken = true) (c : Char) :
    piece.EndsBefore c := by
  cases piece with
  | token _ _ => trivial
  | _ => cases h

/-- Blanks and line breaks continue no token. -/
theorem ne_of_isSpace (h : isSpace c = true) :
    c.isDigit = false ∧ continuesWord c = false ∧ c ≠ '.' ∧ c ≠ '=' ∧ c ≠ '/' := by
  obtain h | h := Bool.or_eq_true_iff.1 h
  · obtain rfl | rfl | rfl | rfl := cases_of_isBlank h <;> decide
  · obtain rfl := beq_iff_eq.1 h
    decide

/-- A piece that ends in front of a blank or a line break is the same without what follows. -/
theorem cut_append_of_endsBefore {first : Char} (hspace : isSpace c = true)
    (h : (cut first text).1.EndsBefore c) (behind : List Char) :
    cut first (text ++ c :: behind) = ((cut first text).1, (cut first text).2 ++ c :: behind) := by
  -- A space goes on with no number, word, symbol or comment mark. Only blanks, comments and strings
  -- could take it in.
  obtain ⟨hdigit, hword, hpoint, hequals, hslash⟩ := ne_of_isSpace hspace
  have hhead : ((text ++ c :: behind).head? == some '/') = (text.head? == some '/') := by
    cases text with
    | nil => simpa using hslash
    | cons => rfl
  unfold cut at h ⊢
  rw [hhead, run_append_cons (p := continuesWord) hword, cutNumber_append_cons hdigit hpoint,
    cutSymbol_append_cons hequals]
  split
  · next hblank =>
    rw [if_pos hblank] at h
    obtain rfl : c = '\n' := h
    rw [run_append_cons (p := isBlank) rfl]
  next hblank =>
  split
  · rfl
  next hnewline =>
  split
  · next hcomment =>
    rw [if_neg hblank, if_neg hnewline, if_pos hcomment] at h
    obtain rfl : c = '\n' := h
    rw [run_append_cons (p := (· != '\n')) rfl]
  next hcomment =>
  split
  · rfl
  next hdigit =>
  split
  · rfl
  next hword =>
  split
  · next hquote =>
    rw [if_neg hblank, if_neg hnewline, if_neg hcomment, if_neg hdigit, if_neg hword, if_pos hquote]
      at h
    refine cutString_append (fun body heq => ?_) _
    rw [heq] at h
    exact h
  · rfl

end

/-- A line break can be followed by anything, if all strings in front of it are closed. -/
theorem all_append_newline {text : List Char} (h : ∀ body, unterminated body ∉ all text)
    (behind : List Char) : all (text ++ '\n' :: behind) = all text ++ newline :: all behind := by
  fun_induction all text with
  | case1 => rw [List.nil_append, all, List.nil_append]; rfl
  | case2 c rest ih =>
    have hfirst : (cut c rest).1.EndsBefore '\n' :=
      endsBefore_newline fun body heq => h body (heq ▸ List.mem_cons_self)
    rw [List.cons_append, all, cut_append_of_endsBefore rfl hfirst, ih fun body hmem =>
      h body (.tail _ hmem), List.cons_append]

/-! ## Pieces that are moved on -/

/-- Pieces are placed one after the other. -/
theorem locate_append (p : Place) (front behind : List Piece) :
    locate p (front ++ behind) = locate p front ++ locate
      (p.after (front.flatMap text)) behind := by
  induction front generalizing p with
  | nil => rfl
  | cons piece front ih =>
    rw [List.cons_append, locate, locate, ih, List.flatMap_cons, Place.after_append,
      List.cons_append]

/-- Pieces in a shifted place are shifted. -/
theorem locate_shift (bytes lines : Nat) (p : Place) (pieces : List Piece) :
    locate (p.shift bytes lines) pieces =
      (locate p pieces).map fun located => (located.1, located.2.shift bytes lines) := by
  induction pieces generalizing p with
  | nil => rfl
  | cons piece pieces ih =>
    rw [locate, locate, List.map_cons, Place.after_shift, ih, Place.spanOf, Place.after_shift]
    rfl

/-- A token is made of the text of its piece, wherever that is. -/
theorem token?_shift (bytes lines : Nat) (located : Piece × Span) :
    token? (located.1, located.2.shift bytes lines) = (token? located).map
      (Token.shift bytes lines) := by
  obtain ⟨piece, span⟩ := located
  cases piece with
  | token kind text =>
    cases kind with
    | number =>
      simp only [token?, Option.map_map]
      rfl
    | _ => rfl
  | _ => rfl

/-- A diagnostic in a shifted place is shifted. -/
theorem diagnostic?_shift (bytes lines : Nat) (located : Piece × Span) :
    diagnostic? (located.1, located.2.shift bytes lines) =
      (diagnostic? located).map (Diagnostic.shift bytes lines) := by
  rw [diagnostic?, diagnostic?, Option.map_map]
  rfl

/-- The pieces of two texts with a line break between them, each at its place. -/
theorem locate_all_append_newline {text : List Char} (h : ∀ body, unterminated body ∉ all text)
    (behind : List Char) :
    locate .start (all (text ++ '\n' :: behind)) =
      locate .start (all text) ++ (newline, (Place.start.after text).spanOf ['\n']) ::
        (locate .start (all behind)).map fun located =>
          (located.1, located.2.shift (Text.byteSize text + 1) (text.count '\n' + 1)) := by
  rw [all_append_newline h, locate_append, text_all, locate, ← Place.after_append, Piece.text,
    Place.after_newline, locate_shift]

end Piece

/-! ## Tokens and diagnostics -/

namespace Lexed

section

variable {text : List Char} (h : ∀ body, Piece.unterminated body ∉ Piece.all text)
  (behind : List Char)

include h

/-- Behind a line break stand the tokens that would stand there anyway, moved on. -/
theorem tokens_append_newline :
    (ofText (text ++ '\n' :: behind)).tokens =
      (ofText text).tokens.dropLast ++
        (ofText behind).tokens.map (Token.shift (Text.byteSize text + 1)
          (text.count '\n' + 1)) := by
  -- The end mark of the first text is dropped, and that of the second one is shifted with its
  -- tokens.
  have heof : Token.eof (endOf (text ++ '\n' :: behind)).offset
    (endOf (text ++ '\n' :: behind)).line =
      Token.shift (Text.byteSize text + 1) (text.count '\n' + 1)
        (.eof (endOf behind).offset (endOf behind).line) := by
    have hplace : endOf (text ++ '\n' :: behind) =
        (endOf behind).shift (Text.byteSize text + 1) (text.count '\n' + 1) := by
      rw [endOf, endOf, ← Place.after_shift, ← Place.after_newline, ← Place.after_append,
        List.append_assoc]
      rfl
    rw [hplace]
    rfl
  simp only [ofText, Piece.locate_all_append_newline h, List.dropLast_concat, List.map_append]
  rw [List.filterMap_append, List.filterMap_cons_none rfl, List.filterMap_map, heof,
    List.append_assoc, List.map_filterMap]
  simp only [Function.comp_def, Piece.token?_shift]
  rfl

/-- Behind a line break everything is wrong that would be wrong there anyway, moved on. -/
theorem diagnostics_append_newline :
    (ofText (text ++ '\n' :: behind)).diagnostics =
      (ofText text).diagnostics ++
        (ofText behind).diagnostics.map
          (Diagnostic.shift (Text.byteSize text + 1) (text.count '\n' + 1)) := by
  simp only [ofText, Piece.locate_all_append_newline h]
  rw [List.filterMap_append, List.filterMap_cons_none rfl, List.filterMap_map, List.map_filterMap]
  simp only [Function.comp_def, Piece.diagnostic?_shift]

end

/-- If none is reported that is not closed, all strings are closed. -/
theorem unterminated_notMem {text : List Char}
    (h : ∀ d ∈ (ofText text).diagnostics, d.fault ≠ .lexical .unterminatedString)
    (body : List Char) : Piece.unterminated body ∉ Piece.all text := by
  intro hmem
  rw [← Piece.map_fst_locate .start (Piece.all text), List.mem_map] at hmem
  obtain ⟨⟨piece, span⟩, hlocated, rfl⟩ := hmem
  exact h (.lexical span .unterminatedString) (List.mem_filterMap.2 ⟨_, hlocated, rfl⟩) rfl

/-- The characters of two sources with a line break between them are those of the three parts. -/
theorem ofSource_append_newline (a b : String) :
    ofSource (a ++ "\n" ++ b) = ofText (a.toList ++ '\n' :: b.toList) := by
  rw [ofSource]
  simp

/-- **Sources are lexed line by line.** If no string of the first source is reported as not closed,
    whatever else is wrong with it, then behind a line break the second source has the tokens and
    the diagnostics that it has on its own, moved on by the bytes and the lines in front of them. Of
    the first source only the end mark is lost. -/
theorem ofSource_line_by_line {a : String}
    (h : ∀ d ∈ (ofSource a).diagnostics, d.fault ≠ .lexical .unterminatedString) (b : String) :
    ∃ front line, (ofSource a).tokens = front ++ [Token.eof a.utf8ByteSize line] ∧
      (∀ t ∈ front, t.kind ≠ .eof) ∧
      (ofSource (a ++ "\n" ++ b)).tokens =
        front ++ (ofSource b).tokens.map (.shift (a.utf8ByteSize + 1) (a.toList.count '\n' + 1)) ∧
      (ofSource (a ++ "\n" ++ b)).diagnostics =
        (ofSource a).diagnostics ++
          (ofSource b).diagnostics.map (.shift (a.utf8ByteSize + 1) (a.toList.count '\n' + 1)) := by
  have hclosed := unterminated_notMem h
  have htokens := tokens_append_newline hclosed b.toList
  have hdiagnostics := diagnostics_append_newline hclosed b.toList
  rw [← ofSource_append_newline, Text.byteSize_toList] at htokens hdiagnostics
  -- The tokens of the first source in front of its end mark are those of its pieces.
  refine ⟨(Piece.locate .start (Piece.all a.toList)).filterMap Piece.token?,
    (endOf a.toList).line, ?_, ?_, ?_, hdiagnostics⟩
  · rw [← offset_endOf]
    rfl
  · exact fun t ht => (Piece.token_of_mem ht).2.1
  · rw [htokens, ofText, List.dropLast_concat]
    rfl

/-- The first source has a string with a line break in it, a fault and a comment, and the second one
    a string that is not closed. -/
theorem ofSource_line_by_line_around_faults :
    let a := "\"é\n\" @ // c"
    let b := "x\"open"
    (∀ d ∈ (ofSource a).diagnostics, d.fault ≠ .lexical .unterminatedString) ∧
      (ofSource (a ++ "\n" ++ b)).tokens =
        [{ Token.plain .string "\"é\n\"" ⟨0, 5, 1⟩ with literal := some (.string "é\n") },
          .plain .identifier "x" ⟨13, 14, 3⟩, .eof 19 3] ∧
      (ofSource (a ++ "\n" ++ b)).diagnostics =
        [.lexical ⟨6, 7, 2⟩ (.unsupportedCharacter '@'),
          .lexical ⟨14, 19, 3⟩ .unterminatedString] := by
  intro a b
  have ha : (ofSource a).tokens =
        [{ Token.plain .string "\"é\n\"" ⟨0, 5, 1⟩ with literal := some (.string "é\n") },
          .eof 12 2] ∧
      (ofSource a).diagnostics = [.lexical ⟨6, 7, 2⟩ (.unsupportedCharacter '@')] := by
    decide +kernel
  have hb : (ofSource b).tokens = [.plain .identifier "x" ⟨0, 1, 1⟩, .eof 6 1] ∧
      (ofSource b).diagnostics = [.lexical ⟨1, 6, 1⟩ .unterminatedString] := by
    decide +kernel
  -- The first line has a fault, but not that of an open string.
  have hclosed : ∀ d ∈ (ofSource a).diagnostics, d.fault ≠ .lexical .unterminatedString := by
    rw [ha.2]
    rintro _ (_ | ⟨_, ⟨⟩⟩) ⟨⟩
  obtain ⟨front, line, hfront, -, htokens, hdiagnostics⟩ := ofSource_line_by_line hclosed b
  have hlast := congrArg List.dropLast hfront
  rw [ha.1, List.dropLast_concat] at hlast
  subst hlast
  have hsize : a.utf8ByteSize = 12 := by decide
  have hlines : a.toList.count '\n' = 1 := by decide +kernel
  rw [hb.1, hsize, hlines] at htokens
  rw [ha.2, hb.2, hsize, hlines] at hdiagnostics
  exact ⟨hclosed, htokens, hdiagnostics⟩

end Lexed

end Treewalk
