import Treewalk.Proofs.ForStd.Rel
import Treewalk.Proofs.Number.Numeral
import Treewalk.Proofs.Token.Rules
import Treewalk.Token.Lexed

/-!
# Lexing tiles the source

The pieces of a source stand one behind the other, with no byte between two of them and none at
either end (`Piece.fill_locate`), and each takes up just its own text (`Piece.cuts_of_mem_locate`).
Tokens and diagnostics are what the pieces with a meaning stand for: no token without its piece, no
piece without its token or its diagnostic.
-/

namespace Treewalk

/-! ## Sizes and places -/

namespace Text

/-- The size of a string is that of its characters. -/
@[simp] theorem utf8ByteSize_ofList (text : List Char) :
    (String.ofList text).utf8ByteSize = byteSize text := by
  induction text with
  | nil => rfl
  | cons c rest ih =>
    rw [String.ofList_cons, String.utf8ByteSize_append, String.utf8ByteSize_singleton, ih, byteSize]

/-- Every character takes up at least one byte. -/
theorem byteSize_pos {text : List Char} (h : text ≠ []) : 0 < byteSize text := by
  obtain ⟨c, rest, rfl⟩ := List.exists_cons_of_ne_nil h
  exact Nat.add_pos_left c.utf8Size_pos _

/-- The characters of a string have its size. -/
theorem byteSize_toList (source : String) : byteSize source.toList = source.utf8ByteSize := by
  rw [← utf8ByteSize_ofList, String.ofList_toList]

end Text

namespace Place

/-- A place is behind two texts if it is behind the second from where it was behind the first. -/
theorem after_append (p : Place) (s t : List Char) : p.after (s ++ t) = (p.after s).after t := by
  simp only [after, Text.byteSize_append, List.count_append, Nat.add_assoc]

/-- The span of a part of a source starts behind the text in front of the part. -/
theorem split_spanOf {source : String} {before part behind : List Char}
    (h : source.toList = before ++ part ++ behind) :
    source = .ofList before ++ .ofList part ++ .ofList behind ∧
      ((start.after before).spanOf part).start = (String.ofList before).utf8ByteSize ∧
      ((start.after before).spanOf part).stop =
        (String.ofList before ++ .ofList part).utf8ByteSize := by
  refine ⟨?_, ?_, ?_⟩
  · rw [← String.ofList_append, ← String.ofList_append, ← h, String.ofList_toList]
  · rw [Text.utf8ByteSize_ofList]
    exact Nat.zero_add _
  · rw [String.utf8ByteSize_append, Text.utf8ByteSize_ofList, Text.utf8ByteSize_ofList]
    exact congrArg (· + _) (Nat.zero_add _)

end Place

namespace Span

/-- The span cuts a text out of a source. -/
def Cuts (span : Span) (source text : String) : Prop :=
  ∃ before behind : String, source = before ++ text ++ behind ∧
    span.start = before.utf8ByteSize ∧ span.stop = (before ++ text).utf8ByteSize

/-- The spans lie one behind the other from one offset to another, with nothing between them. -/
def Fill : List Span → Nat → Nat → Prop
  | [], first, last => first = last
  | span :: rest, first, last => span.start = first ∧ Fill rest span.stop last

end Span

namespace Piece

/-! ## Pieces at their places -/

/-- Placing pieces does not change them. -/
theorem map_fst_locate (p : Place) (pieces : List Piece) :
    (locate p pieces).map Prod.fst = pieces := by
  induction pieces generalizing p with
  | nil => rfl
  | cons piece pieces ih => rw [locate, List.map_cons, ih]

/-- Pieces that are placed one after the other fill the text that they make up. -/
theorem fill_locate (p : Place) (pieces : List Piece) :
    Span.Fill ((locate p pieces).map Prod.snd) p.offset (p.after (pieces.flatMap text)).offset := by
  induction pieces generalizing p with
  | nil => rfl
  | cons piece pieces ih =>
    rw [List.flatMap_cons, Place.after_append]
    exact ⟨rfl, ih (p.after piece.text)⟩

/-- A piece stands behind the text of those in front of it. -/
theorem exists_of_mem_locate {p : Place} {pieces : List Piece} {located : Piece × Span}
    (h : located ∈ locate p pieces) :
    ∃ before behind, pieces = before ++ located.1 :: behind ∧
      located.2 = (p.after (before.flatMap text)).spanOf located.1.text := by
  induction pieces generalizing p with
  | nil => exact nomatch h
  | cons piece pieces ih =>
    obtain rfl | h := List.mem_cons.1 h
    · exact ⟨[], pieces, rfl, rfl⟩
    · obtain ⟨before, behind, rfl, hspan⟩ := ih h
      refine ⟨piece :: before, behind, rfl, ?_⟩
      rw [hspan, List.flatMap_cons, Place.after_append]

/-- A piece of a source stands behind the text in front of it. -/
theorem exists_text_of_mem_locate {source : String} {located : Piece × Span}
    (h : located ∈ locate .start (all source.toList)) :
    ∃ before behind, source.toList = before ++ located.1.text ++ behind ∧
      located.2 = (Place.start.after before).spanOf located.1.text := by
  obtain ⟨before, behind, hpieces, hspan⟩ := exists_of_mem_locate h
  have hsource := text_all source.toList
  rw [hpieces, List.flatMap_append, List.flatMap_cons, ← List.append_assoc] at hsource
  exact ⟨_, _, hsource.symm, hspan⟩

/-- The span of a piece cuts the piece's text out of the source. -/
theorem cuts_of_mem_locate {source : String} {located : Piece × Span}
    (h : located ∈ locate .start (all source.toList)) :
    located.2.Cuts source (String.ofList located.1.text) := by
  obtain ⟨before, behind, hsource, hspan⟩ := exists_text_of_mem_locate h
  rw [hspan]
  exact ⟨_, _, Place.split_spanOf hsource⟩

/-- A piece lies between the ends of the pieces that it is one of. -/
theorem bounds_of_mem_locate {p : Place} {pieces : List Piece} {located : Piece × Span}
    (h : located ∈ locate p pieces) :
    p.offset ≤ located.2.start ∧ located.2.stop ≤ (p.after (pieces.flatMap text)).offset := by
  obtain ⟨before, behind, hpieces, hspan⟩ := exists_of_mem_locate h
  rw [hspan, hpieces, List.flatMap_append, List.flatMap_cons, Place.after_append,
    Place.after_append]
  exact ⟨Nat.le_add_right _ _, Nat.le_add_right _ _⟩

/-- A piece ends before those behind it start. -/
theorem pairwise_locate (p : Place) (pieces : List Piece) :
    (locate p pieces).Pairwise fun a b => a.2.stop ≤ b.2.start := by
  induction pieces generalizing p with
  | nil => exact .nil
  | cons piece pieces ih =>
    exact .cons (fun located h => (bounds_of_mem_locate h).1) (ih (p.after piece.text))

/-- A piece with some text ends behind its start. -/
theorem start_lt_of_mem_locate {p : Place} {pieces : List Piece} {located : Piece × Span}
    (h : located ∈ locate p pieces) (hne : located.1.text ≠ []) :
    located.2.start < located.2.stop := by
  obtain ⟨before, behind, -, hspan⟩ := exists_of_mem_locate h
  rw [hspan]
  exact Nat.lt_add_of_pos_right (Text.byteSize_pos hne)

/-! ## What the pieces of a tiling are -/

/-- A piece that leads fits a rule or is a stray character. -/
theorem Leads.ruled {piece : Piece} {text : List Char} (h : piece.Leads text) :
    piece.Ruled ∨ ∃ c, piece = .stray c := by
  cases h with
  | longest hruled _ _ _ => exact .inl hruled
  | stray _ => exact .inr ⟨_, rfl⟩

/-- A string that is not closed takes up the rest of the text: whatever was behind it would make it
    longer, or close it. -/
theorem Leads.eq_nil_of_unterminated {text rest : List Char}
    (h : (unterminated text).Leads (text ++ rest)) : rest = [] := by
  cases h with
  | longest hruled _ hlongest _ =>
    cases hruled with
    | @unterminated body hbody =>
      cases rest with
      | nil => rfl
      | cons d rest =>
        have hfront : '"' :: (body ++ [d]) <+: '"' :: body ++ d :: rest := ⟨rest, by simp⟩
        have hlonger : ¬ ('"' :: (body ++ [d])).length ≤ ('"' :: body).length := by simp
        -- With one character more it would be a longer piece, closed or still open.
        by_cases hd : d = '"'
        · subst hd
          exact absurd (hlongest _ (.string hbody) hfront) hlonger
        · have hothers : '"' ∉ body ++ [d] := by simp [hbody, Ne.symm hd]
          exact absurd (hlongest _ (.unterminated hothers) hfront) hlonger

/-- Pieces that tile a text follow the rules, except for stray characters. -/
theorem Tiles.ruled {pieces : List Piece} {text : List Char} (h : Tiles pieces text) :
    ∀ piece ∈ pieces, piece.Ruled ∨ ∃ c, piece = .stray c := by
  induction h with
  | nil => exact fun _ h => nomatch h
  | cons hfirst _ ih => exact List.forall_mem_cons.2 ⟨hfirst.ruled, ih⟩

/-- No piece of a tiling is empty. -/
theorem Tiles.text_ne_nil {pieces : List Piece} {text : List Char} (h : Tiles pieces text) :
    ∀ piece ∈ pieces, piece.text ≠ [] := by
  intro piece hpiece
  obtain hruled | ⟨c, rfl⟩ := h.ruled piece hpiece
  · obtain ⟨c, rest, htext, -⟩ := hruled.exists_cons
    rw [htext]
    exact List.cons_ne_nil c rest
  · exact List.cons_ne_nil c []

/-- Pieces that tile a text make it up. -/
theorem Tiles.flatMap_text {pieces : List Piece} {text : List Char} (h : Tiles pieces text) :
    pieces.flatMap Piece.text = text := by
  induction h with
  | nil => rfl
  | cons _ _ ih => rw [List.flatMap_cons, ih]

/-- Each piece of a tiling is at the front of the text of those behind it. -/
theorem Tiles.leads_append {before behind : List Piece} {piece : Piece} {text : List Char}
    (h : Tiles (before ++ piece :: behind) text) :
    piece.Leads (piece.text ++ behind.flatMap Piece.text) := by
  induction before generalizing text with
  | nil =>
    cases h with
    | cons hfirst hothers => rwa [hothers.flatMap_text]
  | cons first before ih =>
    cases h with
    | cons _ hothers => exact ih hothers

/-- Only no pieces at all tile the empty text. -/
theorem Tiles.eq_nil {pieces : List Piece} (h : Tiles pieces []) : pieces = [] := by
  cases pieces with
  | nil => rfl
  | cons piece pieces =>
    have htext := h.flatMap_text
    rw [List.flatMap_cons, List.append_eq_nil_iff] at htext
    exact absurd htext.1 (h.text_ne_nil piece List.mem_cons_self)

/-- A string that is not closed is the last piece of a tiling. -/
theorem Tiles.eq_nil_of_unterminated {pieces before behind : List Piece} {text body : List Char}
    (h : Tiles pieces text) (hpieces : pieces = before ++ .unterminated body :: behind) :
    behind = [] := by
  induction h generalizing before with
  | nil => exact absurd hpieces.symm (List.append_ne_nil_of_right_ne_nil _ (List.cons_ne_nil _ _))
  | cons hfirst hothers ih =>
    cases before with
    | nil =>
      obtain ⟨rfl, rfl⟩ := List.cons.inj hpieces
      obtain rfl := hfirst.eq_nil_of_unterminated
      exact hothers.eq_nil
    | cons piece before => exact ih (List.cons.inj hpieces).2

/-! ## Tokens and diagnostics -/

/-- Does the piece stand for a token? -/
def isToken : Piece → Bool
  | token _ _ => true
  | _ => false

/-- Is the piece one to complain about? -/
def isFaulty : Piece → Bool
  | stray _ => true
  | unterminated _ => true
  | _ => false

/-- The token has the kind, the text and the span of the piece. -/
def Gives (located : Piece × Span) (t : Token) : Prop :=
  located = (token t.kind t.lexeme.toList, t.span)

/-- The diagnostic is about the piece, and says what is wrong with it. -/
inductive Reports : Piece × Span → Diagnostic → Prop where
  | stray (c : Char) (span : Span) :
      Reports (stray c, span) (.lexical span (.unsupportedCharacter c))
  | unterminated (text : List Char) (span : Span) :
      Reports (unterminated text, span) (.lexical span .unterminatedString)

/-- Only an open string has the message of one. -/
theorem Reports.of_message {located : Piece × Span} {d : Diagnostic} (h : Reports located d)
    (hmessage : d.message = "Unterminated string.") :
    (∃ body, located.1 = .unterminated body) ∧ d.span = located.2 := by
  cases h with
  | unterminated body span => exact ⟨⟨body, rfl⟩, rfl⟩
  | stray c span =>
    -- The third characters of the two messages differ.
    have hthird := congrArg (fun s => s.toList[2]?) hmessage
    have hstray : ("Unsupported character '" ++ String.singleton c ++ "'.").toList[2]? =
        some 's' := by
      rw [String.append_assoc, String.toList_append]
      rfl
    exact absurd (hstray.symm.trans hthird) (by decide)

/-- If only the last piece can be an unclosed string, only the last diagnostic can be about one. -/
theorem eq_nil_of_message {pieces : List (Piece × Span)} {before behind : List Diagnostic}
    {d : Diagnostic} {size : Nat}
    (hlast : ∀ front back body span, pieces = front ++ (.unterminated body, span) :: back →
      back = [] ∧ span.stop = size)
    (h : List.Forall₂ Reports (pieces.filter (·.1.isFaulty)) (before ++ d :: behind))
    (hmessage : d.message = "Unterminated string.") : behind = [] ∧ d.span.stop = size := by
  have hfrom := List.forall₂_drop_append _ _ _ h
  obtain ⟨located, others, hreports, hothers, heq⟩ := List.forall₂_cons_right_iff.1 hfrom
  obtain ⟨⟨body, hbody⟩, hspan⟩ := hreports.of_message hmessage
  obtain ⟨piece, span⟩ := located
  obtain rfl : piece = .unterminated body := hbody
  -- The diagnostic belongs to a faulty piece, and as that is an open string there is no piece
  -- behind it.
  have hfilter := (List.take_append_drop before.length (pieces.filter (·.1.isFaulty))).symm
  rw [heq] at hfilter
  obtain ⟨front, back, rfl, -, hback⟩ := List.filter_eq_append_iff.1 hfilter
  obtain ⟨front', back', rfl, -, -, rfl⟩ := List.filter_eq_cons_iff.1 hback
  obtain ⟨rfl, hstop⟩ := hlast (front ++ front') back' body span (List.append_assoc ..).symm
  cases hothers
  exact ⟨rfl, hspan ▸ hstop⟩

/-- A number is some digits, or some digits with a point between two of them. -/
theorem Ruled.number_cases {text : List Char} (h : (token .number text).Ruled) :
    IsDigits text ∨
      ∃ digits fraction, text = digits ++ '.' :: fraction ∧ IsDigits digits ∧
        IsDigits fraction := by
  -- Two of the rules are for numbers, and the kind excludes the others.
  generalize hpiece : token .number text = piece at h
  cases h with
  | whole hdigits =>
    cases hpiece
    exact .inl hdigits
  | decimal hdigits hfraction =>
    cases hpiece
    exact .inr ⟨_, _, rfl, hdigits, hfraction⟩
  | fixed hkind =>
    cases hpiece
    exact nomatch hkind
  | _ => exact nomatch hpiece

/-- The text of a number is a numeral. -/
theorem isSome_ofNumeral? {text : List Char} (h : (token .number text).Ruled) :
    (Number.ofNumeral? text).isSome = true := by
  obtain hdigits | ⟨digits, fraction, rfl, hdigits, hfraction⟩ := h.number_cases
  · rw [Number.ofNumeral?_whole hdigits.1 hdigits.2, Option.isSome_some]
  · rw [Number.ofNumeral?_decimal hdigits.1 hdigits.2 hfraction.2, Option.isSome_some]

/-- A token is made of a piece with its kind, text and span. -/
theorem gives_of_token? {located : Piece × Span} {t : Token} (h : token? located = some t) :
    Gives located t := by
  unfold token? at h
  split at h
  · obtain ⟨value, -, rfl⟩ := Option.map_eq_some_iff.1 h
    simp [Gives, Token.plain]
  · obtain rfl := Option.some.inj h
    simp [Gives, Token.plain]
  · obtain rfl := Option.some.inj h
    simp [Gives, Token.plain]
  · exact nomatch h

/-- Every token piece is made into a token. -/
theorem isSome_token? {kind : Kind} {text : List Char} (span : Span) (h : (token kind text).Ruled) :
    (token? (token kind text, span)).isSome = true := by
  unfold token?
  split
  · next heq =>
    cases heq
    rw [Option.isSome_map, isSome_ofNumeral? h]
  · rfl
  · rfl
  · next hother => exact absurd rfl (hother kind text span)

/-- No token is a line break, an unclosed string or an end mark. -/
theorem kind_of_ruled {kind : Kind} {text : List Char} (h : (token kind text).Ruled) :
    kind ≠ .eof ∧ kind ≠ .newline ∧ kind ≠ .unterminatedString := by
  generalize hpiece : token kind text = piece at h
  cases h with
  | fixed hkind =>
    cases hpiece
    -- None of these kinds has a text of its own.
    refine ⟨?_, ?_, ?_⟩ <;>
    · rintro rfl
      exact nomatch hkind
  | whole | decimal | string | identifier =>
    cases hpiece
    decide
  | _ => exact nomatch hpiece

section

variable {p : Place} {pieces : List Piece} {text : List Char}

/-- The tokens are the token pieces, in order. -/
theorem forall₂_gives (h : Tiles pieces text) :
    List.Forall₂ Gives ((locate p pieces).filter (·.1.isToken))
      ((locate p pieces).filterMap token?) := by
  refine List.forall₂_filter_filterMap ?_ ?_
  · rintro ⟨piece, span⟩ hmem htoken
    have hpiece : piece ∈ pieces := map_fst_locate p pieces ▸ List.mem_map_of_mem hmem
    cases piece with
    | token kind text =>
      -- A piece that follows the rules makes a token, and a stray character is none.
      obtain hruled | ⟨c, heq⟩ := h.ruled _ hpiece
      · obtain ⟨t, ht⟩ := Option.isSome_iff_exists.1 (isSome_token? span hruled)
        exact ⟨t, ht, gives_of_token? ht⟩
      · exact nomatch heq
    | _ => exact nomatch htoken
  · rintro ⟨piece, span⟩ - htoken
    cases piece with
    | token kind text => exact nomatch htoken
    | _ => rfl

/-- The diagnostics are about the faulty pieces, in order. -/
theorem forall₂_reports (h : Tiles pieces text) :
    List.Forall₂ Reports ((locate p pieces).filter (·.1.isFaulty))
      ((locate p pieces).filterMap diagnostic?) := by
  refine List.forall₂_filter_filterMap ?_ ?_
  · rintro ⟨piece, span⟩ - hfaulty
    cases piece with
    | stray c => exact ⟨_, rfl, .stray c span⟩
    | unterminated text => exact ⟨_, rfl, .unterminated text span⟩
    | _ => exact nomatch hfaulty
  · rintro ⟨piece, span⟩ hmem hfaulty
    have hpiece : piece ∈ pieces := map_fst_locate p pieces ▸ List.mem_map_of_mem hmem
    cases piece with
    | stray c => exact nomatch hfaulty
    | unterminated text => exact nomatch hfaulty
    | token kind text =>
      obtain hruled | ⟨c, heq⟩ := h.ruled _ hpiece
      · -- Only a number that is out of range could be at fault here, and none that follows the
        -- rules is.
        unfold diagnostic? fault?
        split
        · next heq =>
          cases heq
          rw [if_pos (isSome_ofNumeral? hruled), Option.map_none]
        · next heq => exact nomatch heq
        · next heq => exact nomatch heq
        · rfl
      · exact nomatch heq
    | _ => rfl

end

/-- A token of a source has its text at its span, and is no line break, unclosed string or end
    mark. -/
theorem token_of_mem {source : String} {t : Token}
    (h : t ∈ (locate .start (all source.toList)).filterMap token?) :
    t.span.Cuts source t.lexeme ∧ t.kind ≠ .eof ∧ t.kind ≠ .newline ∧
      t.kind ≠ .unterminatedString := by
  have htiles := tiles_all source.toList
  obtain ⟨located, hmem, htoken⟩ := List.mem_filterMap.1 h
  have hgives := gives_of_token? htoken
  have hpiece : located.1 ∈ all source.toList :=
    map_fst_locate _ (all source.toList) ▸ List.mem_map_of_mem hmem
  have hcuts := cuts_of_mem_locate hmem
  rw [show located = _ from hgives] at hcuts hpiece
  refine ⟨by simpa [text] using hcuts, ?_⟩
  -- A token is no stray character, so its piece follows the rules.
  obtain hruled | ⟨c, heq⟩ := htiles.ruled _ hpiece
  · exact kind_of_ruled hruled
  · cases heq

end Piece

namespace Lexed

/-- The end of a source is as far from its start as its size. -/
theorem offset_endOf (source : String) : (endOf source.toList).offset = source.utf8ByteSize :=
  (Nat.zero_add _).trans (Text.byteSize_toList source)

/-- A piece starts before all that are behind it. -/
theorem pairwise_pieces (source : String) :
    (Piece.locate .start (Piece.all source.toList)).Pairwise fun a b => a.2.start < b.2.start := by
  refine (Piece.pairwise_locate _ _).imp_of_mem fun {a b} ha _ hstop => ?_
  have hpiece : a.1 ∈ Piece.all source.toList :=
    Piece.map_fst_locate .start (Piece.all source.toList) ▸ List.mem_map_of_mem ha
  have hne := (Piece.tiles_all source.toList).text_ne_nil _ hpiece
  exact Nat.lt_of_lt_of_le (Piece.start_lt_of_mem_locate ha hne) hstop

/-- A piece starts in front of the end of the source. -/
theorem start_lt_of_mem_pieces {source : String} {located : Piece × Span}
    (h : located ∈ Piece.locate .start (Piece.all source.toList)) :
    located.2.start < (endOf source.toList).offset := by
  have hpiece : located.1 ∈ Piece.all source.toList :=
    Piece.map_fst_locate .start (Piece.all source.toList) ▸ List.mem_map_of_mem h
  have hne := (Piece.tiles_all source.toList).text_ne_nil _ hpiece
  have hstop := (Piece.bounds_of_mem_locate h).2
  rw [Piece.text_all] at hstop
  exact Nat.lt_of_lt_of_le (Piece.start_lt_of_mem_locate h hne) hstop

/-- A token starts before all that are behind it. -/
theorem pairwise_tokens (source : String) :
    (ofSource source).tokens.Pairwise fun t u => t.span.start < u.span.start := by
  have hspan {located : Piece × Span} {t : Token} (h : Piece.token? located = some t) :
      located.2 = t.span := congrArg Prod.snd (Piece.gives_of_token? h)
  refine List.pairwise_append.2 ⟨?_, List.pairwise_singleton _ _, ?_⟩
  · rw [List.pairwise_filterMap]
    refine (pairwise_pieces source).imp fun hlt t ht u hu => ?_
    rwa [← hspan ht, ← hspan hu]
  · -- The end mark is behind all pieces, since none of these is empty.
    intro t ht u hu
    obtain rfl := List.mem_singleton.1 hu
    obtain ⟨located, hmem, hpiece⟩ := List.mem_filterMap.1 ht
    rw [← hspan hpiece]
    exact start_lt_of_mem_pieces hmem

/-- Only the last piece can be an unclosed string, which goes on to the end of the source. -/
theorem eq_nil_of_unterminated {source : String} {before behind : List (Piece × Span)}
    {body : List Char} {span : Span}
    (hpieces : Piece.locate .start (Piece.all source.toList) = before ++
      (.unterminated body, span) :: behind) : behind = [] ∧ span.stop = source.utf8ByteSize := by
  have htiles := Piece.tiles_all source.toList
  have hlast : Piece.all source.toList =
      before.map Prod.fst ++ .unterminated body :: behind.map Prod.fst := by
    rw [← Piece.map_fst_locate .start (Piece.all source.toList), hpieces, List.map_append,
      List.map_cons]
  obtain rfl := List.map_eq_nil_iff.1 (htiles.eq_nil_of_unterminated hlast)
  refine ⟨rfl, ?_⟩
  -- It is the last piece, so it stops where the whole text does.
  obtain ⟨before', behind', hall, hspan⟩ := Piece.exists_of_mem_locate
    (hpieces ▸ List.mem_append_right before (List.mem_singleton_self _))
  obtain rfl := htiles.eq_nil_of_unterminated hall
  have hsource := Piece.text_all source.toList
  have hstop := congrArg Span.stop hspan
  rw [hall, List.flatMap_append] at hsource
  rw [← offset_endOf, ← hsource, endOf, Place.after_append]
  simpa [Place.spanOf] using hstop

/-- A token in front of the end mark is made of a piece with its kind and text, at the place of this
    piece. -/
theorem exists_piece_of_mem {source : String} {t : Token}
    (h : t ∈ (ofSource source).tokens.dropLast) :
    ∃ before behind, Piece.all source.toList = before ++ .token t.kind t.lexeme.toList :: behind ∧
      t.span = (Place.start.after (before.flatMap Piece.text)).spanOf t.lexeme.toList ∧
      Piece.token? (.token t.kind t.lexeme.toList, t.span) = some t := by
  rw [ofSource, ofText, List.dropLast_concat] at h
  obtain ⟨⟨piece, span⟩, hmem, htoken⟩ := List.mem_filterMap.1 h
  obtain ⟨rfl, rfl⟩ := Prod.mk.inj (Piece.gives_of_token? htoken)
  obtain ⟨before, behind, hpieces, hspan⟩ := Piece.exists_of_mem_locate hmem
  exact ⟨before, behind, hpieces, hspan, htoken⟩

/-- The pieces of a source, each at its place, are the longest ones that the rules allow and fill
    the source. The tokens in front of the end mark are the token pieces, and the diagnostics are
    about the faulty pieces. Only the last piece can be an unclosed string, which then goes on to
    the end of the source. -/
theorem ofSource_tiles (source : String) :
    ∃ pieces : List (Piece × Span),
      (Piece.Tiles (pieces.map Prod.fst) source.toList ∧
        Span.Fill (pieces.map Prod.snd) 0 source.utf8ByteSize ∧
        ∀ located ∈ pieces,
          located.1.text ≠ [] ∧ located.2.Cuts source (String.ofList located.1.text)) ∧
      (∃ tokens line,
        (ofSource source).tokens = tokens ++ [Token.eof source.utf8ByteSize line] ∧
        List.Forall₂ Piece.Gives (pieces.filter (·.1.isToken)) tokens ∧
        ∀ t ∈ tokens, t.span.Cuts source t.lexeme ∧
          t.kind ≠ .eof ∧ t.kind ≠ .newline ∧ t.kind ≠ .unterminatedString) ∧
      List.Forall₂ Piece.Reports (pieces.filter (·.1.isFaulty)) (ofSource source).diagnostics ∧
      (∀ before behind body span, pieces = before ++ (.unterminated body, span) :: behind →
        behind = [] ∧ span.stop = source.utf8ByteSize) ∧
      ∀ before behind d, (ofSource source).diagnostics = before ++ d :: behind →
        d.message = "Unterminated string." → behind = [] ∧ d.span.stop = source.utf8ByteSize := by
  have htiles := Piece.tiles_all source.toList
  have hfirst := Piece.map_fst_locate .start (Piece.all source.toList)
  -- The pieces are those that the lexer cuts, each at its place.
  have hreports := Piece.forall₂_reports (p := .start) htiles
  refine ⟨Piece.locate .start (Piece.all source.toList), ⟨?_, ?_, ?_⟩, ?_, hreports, ?_, ?_⟩
  · rw [hfirst]
    exact htiles
  · have hfill := Piece.fill_locate .start (Piece.all source.toList)
    rw [Piece.text_all] at hfill
    exact offset_endOf source ▸ hfill
  · intro located hlocated
    have hpiece : located.1 ∈ Piece.all source.toList := hfirst ▸ List.mem_map_of_mem hlocated
    exact ⟨htiles.text_ne_nil _ hpiece, Piece.cuts_of_mem_locate hlocated⟩
  · refine ⟨_, (endOf source.toList).line, ?_, Piece.forall₂_gives htiles, fun t =>
      Piece.token_of_mem⟩
    rw [← offset_endOf]
    rfl
  · exact fun before behind body span => eq_nil_of_unterminated
  · intro before behind d hd hmessage
    change List.Forall₂ _ _ (ofSource source).diagnostics at hreports
    rw [hd] at hreports
    exact Piece.eq_nil_of_message (fun _ _ _ _ => eq_nil_of_unterminated) hreports hmessage

end Lexed

end Treewalk
