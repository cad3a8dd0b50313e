import Treewalk.Proofs.Token.Seam
import Treewalk.Proofs.Token.Uniqueness
import Treewalk.Proofs.Tree.Like

/-!
# Words with other spacing between them

A text that is a single token by itself is the same token wherever it is put, as long as something
separates it from what stands behind: a blank or a line break ends every token, and spacing makes no
tokens and no faults. So words that are tokens by themselves can be put one behind the other, with
any separators between them, and nothing but these tokens is read (`Lexed.ofSource_respaced`).

The lexeme of a token of a source is such a word. It is the longest match in the source, and without
the text behind it there is no longer one (`Piece.Leads.all_text`).
-/

namespace Treewalk

/-! ## Spacing -/

/-- Blanks, line breaks, and comments up to the ends of their lines. -/
inductive Spacing : List Char → Prop where
  | nil : Spacing []
  | blank {c : Char} {rest : List Char} (hblank : Piece.isBlank c = true) (hrest : Spacing rest) :
      Spacing (c :: rest)
  | newline {rest : List Char} (hrest : Spacing rest) : Spacing ('\n' :: rest)
  | comment {body rest : List Char} (hbody : '\n' ∉ body) (hrest : Spacing rest) :
      Spacing ('/' :: '/' :: (body ++ '\n' :: rest))

/-- Spacing that starts with a blank or a line break. -/
structure Separator (text : List Char) : Prop where
  spacing : Spacing text
  head : ∃ c rest, text = c :: rest ∧ Piece.isSpace c = true

/-- Words one behind the other, with a separator in front of each but the first. -/
def joined (separators words : List String) : String :=
  String.join (List.zipWith (· ++ ·) ("" :: separators) words)

namespace Token

/-- The token as it is at another place. -/
def putAt (p : Place) (t : Token) : Token :=
  { t with line := p.line, span := p.spanOf t.lexeme.toList }

/-- Tokens as they are when their lexemes are put one behind the other, each behind its spacing. -/
def placed : Place → List (String × Token) → List Token
  | _, [] => []
  | p, (spacing, t) :: rest =>
    t.putAt (p.after spacing.toList) :: placed ((p.after spacing.toList).after t.lexeme.toList) rest

/-- The lexeme of the token is a single piece by itself, and this token is made of it. -/
structure Single (t : Token) : Prop where
  all : Piece.all t.lexeme.toList = [.token t.kind t.lexeme.toList]
  made : ∃ span, Piece.token? (.token t.kind t.lexeme.toList, span) = some t

end Token

namespace Lexed

/-- By itself the word is a single token, and nothing is wrong with it. -/
structure Alone (word : String) (t : Token) : Prop where
  diagnostics : (ofSource word).diagnostics = []
  tokens : (ofSource word).tokens.dropLast = [t]
  lexeme : t.lexeme = word

/-- Nothing is wrong with the text, and its tokens are the given ones, each at the place where its
    lexeme is put when there is one of the separators in front of each but the first. -/
structure Respaced (separators : List String) (tokens : List Token) (text : String) : Prop where
  lexed : ofSource text =
    ⟨Token.placed .start (("" :: separators).zip tokens) ++
      [.eof text.utf8ByteSize (endOf text.toList).line], []⟩
  sameText : List.Forall₂ Token.SameText tokens
    (Token.placed .start (("" :: separators).zip tokens))

end Lexed

namespace Piece

/-! ## Pieces that are skipped -/

/-- Is the piece neither a token nor a fault? -/
def isSkipped : Piece → Bool
  | blanks _ | newline | comment _ => true
  | _ => false

/-- The pieces of a text that are not skipped, from a place on. -/
def solid (p : Place) (text : List Char) : List (Piece × Span) :=
  (locate p (all text)).filter fun located => !located.1.isSkipped

section

variable {p : Place} {text : List Char}

/-- Nothing is made of the pieces that are skipped. -/
theorem filterMap_solid {α : Type} {f : Piece × Span → Option α}
    (hf : ∀ located, located.1.isSkipped = true → f located = none) :
    (solid p text).filterMap f = (locate p (all text)).filterMap f := by
  rw [solid, List.filterMap_filter]
  refine List.filterMap_congr fun located _ => ?_
  cases hskipped : located.1.isSkipped with
  | true => simp [hf located hskipped]
  | false => rfl

/-- A piece that is skipped is no token. -/
theorem token?_of_isSkipped (located : Piece × Span) (h : located.1.isSkipped = true) :
    token? located = none := by
  obtain ⟨piece, span⟩ := located
  cases piece <;> first | rfl | exact nomatch h

/-- A piece that is skipped is no diagnostic. -/
theorem diagnostic?_of_isSkipped (located : Piece × Span) (h : located.1.isSkipped = true) :
    diagnostic? located = none := by
  obtain ⟨piece, span⟩ := located
  cases piece <;> first | rfl | exact nomatch h

variable {c : Char} {rest : List Char}

/-- A piece that is skipped in front does not change what is solid, but only where it is. -/
theorem solid_cons_of_isSkipped (h : (cut c rest).1.isSkipped = true) :
    solid p (c :: rest) = solid (p.after (cut c rest).1.text) (cut c rest).2 := by
  rw [solid, all, locate, List.filter_cons_of_neg (by simpa using h), solid]

/-- A blank changes nothing but the place, whether or not there are more blanks behind it. -/
theorem solid_cons_of_isBlank (h : isBlank c = true) :
    solid p (c :: rest) = solid (p.after [c]) rest := by
  have hcut {d : Char} (hd : isBlank d = true) (text : List Char) :
      cut d text = (blanks (d :: (run isBlank text).1), (run isBlank text).2) := if_pos hd
  -- All blanks are one piece. Without the first one they are still one, or none is left.
  rw [solid_cons_of_isSkipped (by rw [hcut h]; rfl), hcut h]
  cases rest with
  | nil => rfl
  | cons d rest =>
    cases hd : isBlank d with
    | true =>
      rw [solid_cons_of_isSkipped (by rw [hcut hd]; rfl), hcut hd, ← Place.after_append]
      simp [run, hd, text]
    | false => simp [run, hd, text]

/-- A newline in front does not change what is solid, but only where it is. -/
theorem solid_cons_newline : solid p ('\n' :: rest) = solid (p.after ['\n']) rest :=
  solid_cons_of_isSkipped rfl

/-- A comment changes nothing but the place. -/
theorem solid_comment {body : List Char} (hbody : '\n' ∉ body) :
    solid p ('/' :: '/' :: (body ++ '\n' :: rest)) =
      solid (p.after ('/' :: '/' :: (body ++ ['\n']))) rest := by
  have hall : ∀ d ∈ '/' :: body, (d != '\n') = true :=
    List.forall_mem_cons.2 ⟨rfl, fun d hd => bne_iff_ne.2 fun heq => hbody (heq ▸ hd)⟩
  -- The comment reaches up to the first newline, which the body does not have.
  have hrun : run (· != '\n') ('/' :: body ++ '\n' :: rest) = ('/' :: body, '\n' :: rest) := by
    rw [run, List.takeWhile_append_of_pos hall, List.dropWhile_append_of_pos hall]
    simp
  have hcut : cut '/' ('/' :: (body ++ '\n' :: rest)) =
      (comment ('/' :: '/' :: body), '\n' :: rest) := by
    rw [← List.cons_append]
    unfold cut
    rw [hrun]
    rfl
  rw [solid_cons_of_isSkipped (by rw [hcut]; rfl), hcut, solid_cons_newline, ← Place.after_append]
  rfl

/-- Spacing changes nothing but the place. -/
theorem solid_append_of_spacing {spacing : List Char} (h : Spacing spacing) (p : Place)
    (behind : List Char) : solid p (spacing ++ behind) = solid (p.after spacing) behind := by
  induction h generalizing p with
  | nil => rfl
  | blank hblank _ ih =>
    rw [List.cons_append, solid_cons_of_isBlank hblank, ih, ← Place.after_append]; rfl
  | newline _ ih => rw [List.cons_append, solid_cons_newline, ih, ← Place.after_append]; rfl
  | @comment body rest hbody _ ih =>
    have hassoc : '/' :: '/' :: (body ++ '\n' :: rest) ++ behind =
        '/' :: '/' :: (body ++ '\n' :: (rest ++ behind)) := by simp
    rw [hassoc, solid_comment hbody, ih, ← Place.after_append]
    simp

end

/-! ## Tokens in front of spacing -/

/-- A single token in front of spacing is the same token, and what is behind it is left. -/
theorem all_append_of_isSpace {kind : Kind} {word behind : List Char}
    (h : all word = [token kind word])
    (hspace : ∀ c ∈ behind.head?, isSpace c = true) :
    all (word ++ behind) = token kind word :: all behind := by
  cases word with
  | nil =>
    rw [all] at h
    cases h
  | cons first rest =>
    have hcuts := h
    rw [all] at hcuts
    obtain ⟨hfirst, hothers⟩ := List.cons.inj hcuts
    have hrest : (cut first rest).2 = [] := by
      rw [← text_all (cut first rest).2, hothers, List.flatMap_nil]
    cases behind with
    | nil => rw [List.append_nil, h, all]
    -- A token is over in front of a space, so it is cut off there as it was at the end.
    | cons c behind =>
      have htoken : (cut first rest).1.isToken = true := by rw [hfirst]; rfl
      have hcut := cut_append_of_endsBefore (hspace c rfl) (endsBefore_of_isToken htoken c) behind
      rw [List.cons_append, all, hcut, hfirst, hrest, List.nil_append]

end Piece

/-! ## Tokens by themselves -/

/-- The same piece in another place makes the same token there. -/
theorem Piece.token?_of_token? {piece : Piece} {span : Span} {t : Token}
    (h : token? (piece, span) = some t)
    (span' : Span) : token? (piece, span') = some { t with line := span'.line, span := span' } := by
  cases piece with
  | token kind text =>
    cases kind with
    -- A number has to be parsed to make a token, but its text is the same at any place.
    | number =>
      obtain ⟨value, hvalue, rfl⟩ := Option.map_eq_some_iff.1 h
      rw [token?, hvalue]
      rfl
    | _ =>
      obtain rfl := Option.some.inj h
      rfl
  | _ => cases h

namespace Token

/-- A token that is a single piece by itself is made of this piece wherever it is. -/
theorem Single.token?_eq {t : Token} (h : t.Single) (p : Place) :
    Piece.token? (.token t.kind t.lexeme.toList, p.spanOf t.lexeme.toList) = some (t.putAt p) := by
  obtain ⟨span, hmade⟩ := h.made
  exact Piece.token?_of_token? hmade (p.spanOf t.lexeme.toList)

/-- Nothing is wrong with a piece that a token is made of. -/
theorem Single.diagnostic?_eq {t : Token} (h : t.Single) (span : Span) :
    Piece.diagnostic? (.token t.kind t.lexeme.toList, span) = none := by
  obtain ⟨span', hmade⟩ := h.made
  obtain ⟨kind, lexeme, literal, line, _⟩ := t
  cases kind with
  | number =>
    obtain ⟨value, hvalue, -⟩ := Option.map_eq_some_iff.1 hmade
    simp [Piece.diagnostic?, Piece.fault?, hvalue]
  | _ => rfl

end Token

namespace Piece

/-! ## Tokens put together -/

/-- What is put together of tokens, each behind its spacing. -/
def textOf (parts : List (String × Token)) : List Char :=
  parts.flatMap fun part => part.1.toList ++ part.2.lexeme.toList

/-- Tokens that are pieces by themselves, with spacing in front of each and separators in front of
all but the first, are all that is read. -/
theorem lexed_textOf {parts : List (String × Token)}
    (hspacing : ∀ part ∈ parts, Spacing part.1.toList)
    (hseparated : ∀ part ∈ parts.tail, Separator part.1.toList)
    (hsingle : ∀ part ∈ parts, part.2.Single) (p : Place) :
    (solid p (textOf parts)).filterMap token? = Token.placed p parts ∧
      (solid p (textOf parts)).filterMap diagnostic? = [] := by
  induction parts generalizing p with
  | nil => simp [textOf, solid, all, locate, Token.placed]
  | cons part parts ih =>
    obtain ⟨spacing, t⟩ := part
    -- Behind the token stands nothing, or the separator of the next one.
    have hspace : ∀ c ∈ (textOf parts).head?, isSpace c = true := by
      cases parts with
      | nil => simp [textOf]
      | cons next parts =>
        obtain ⟨c, rest, htext, hspace⟩ := (hseparated next List.mem_cons_self).head
        rintro d hd
        rw [textOf, List.flatMap_cons, htext] at hd
        exact Option.some.inj hd ▸ hspace
    have ht : t.Single := hsingle _ List.mem_cons_self
    have htext : textOf ((spacing, t) :: parts) = spacing.toList ++
        (t.lexeme.toList ++ textOf parts) := by
      simp [textOf]
    have hsolid : solid p (textOf ((spacing, t) :: parts)) =
        (token t.kind t.lexeme.toList, (p.after spacing.toList).spanOf t.lexeme.toList) ::
          solid ((p.after spacing.toList).after t.lexeme.toList) (textOf parts) := by
      rw [htext, solid_append_of_spacing (hspacing _ List.mem_cons_self), solid,
        all_append_of_isSpace ht.all hspace]
      rfl
    obtain ⟨htokens, hdiagnostics⟩ :=
      ih (fun part hpart => hspacing part (List.mem_cons_of_mem _ hpart))
      (fun part hpart => hseparated part (List.mem_of_mem_tail hpart))
      (fun part hpart => hsingle part (List.mem_cons_of_mem _ hpart))
      ((p.after spacing.toList).after t.lexeme.toList)
    constructor
    · rw [hsolid, List.filterMap_cons_some (ht.token?_eq _), htokens, Token.placed]
    · rw [hsolid, List.filterMap_cons_none (ht.diagnostic?_eq _), hdiagnostics]

end Piece

namespace Lexed

/-- The lexeme of a token of a source is a single token by itself. -/
theorem single_of_mem {source : String} {t : Token} (h : t ∈ (ofSource source).tokens.dropLast) :
    t.Single := by
  obtain ⟨before, behind, hpieces, -, hmade⟩ := exists_piece_of_mem h
  have hleads := (hpieces ▸ Piece.tiles_all source.toList).leads_append
  exact ⟨hleads.all_text, _, hmade⟩

/-- A word that is a single token by itself is the lexeme of this token. -/
theorem Alone.single {word : String} {t : Token} (h : Alone word t) : t.Single :=
  single_of_mem (h.tokens ▸ List.mem_singleton_self t)

/-- The joined words are those of the tokens with the spacings between them. -/
theorem toList_joined (separators : List String) (tokens : List Token) :
    (joined separators (tokens.map Token.lexeme)).toList = Piece.textOf
      (("" :: separators).zip tokens) := by
  rw [joined, String.toList_join, List.zipWith_map_right, Piece.textOf,
    ← List.map_uncurry_zip_eq_zipWith, List.flatMap_map]
  exact List.flatMap_congr fun part _ => String.toList_append

/-- Wherever tokens are placed, they keep their texts. -/
theorem sameText_placed (p : Place) (parts : List (String × Token)) :
    List.Forall₂ Token.SameText (parts.map Prod.snd) (Token.placed p parts) := by
  induction parts generalizing p with
  | nil => exact .nil
  | cons part parts ih => exact .cons ⟨rfl, rfl, rfl⟩ (ih _)

section

variable {separators : List String} (hseparators : ∀ s ∈ separators, Separator s.toList)

include hseparators

/-- Tokens that are single pieces by themselves are read again when their lexemes are put
    together. -/
theorem respaced_of_single {tokens : List Token} (hlength : tokens.length ≤ separators.length + 1)
    (hsingle : ∀ t ∈ tokens, t.Single) :
    Respaced separators tokens (joined separators (tokens.map Token.lexeme)) := by
  -- In front of the first word there may be nothing, and between two of them there has to be a
  -- separator.
  have hspacing : ∀ part ∈ ("" :: separators).zip tokens, Spacing part.1.toList := by
    rintro ⟨spacing, t⟩ hpart
    obtain rfl | hspacing := List.mem_cons.1 (List.of_mem_zip hpart).1
    · exact .nil
    · exact (hseparators _ hspacing).spacing
  have hseparated : ∀ part ∈ (("" :: separators).zip tokens).tail, Separator part.1.toList := by
    rintro ⟨spacing, t⟩ hpart
    cases tokens with
    | nil => exact nomatch hpart
    | cons _ others => exact hseparators _ (List.of_mem_zip hpart).1
  obtain ⟨htokens, hdiagnostics⟩ := Piece.lexed_textOf hspacing hseparated
    (fun part hpart => hsingle _ (List.of_mem_zip hpart).2) .start
  rw [Piece.filterMap_solid Piece.token?_of_isSkipped, ← toList_joined] at htokens
  rw [Piece.filterMap_solid Piece.diagnostic?_of_isSkipped, ← toList_joined] at hdiagnostics
  constructor
  · rw [← offset_endOf, ← htokens, ← hdiagnostics]
    rfl
  · have hsame := sameText_placed .start (("" :: separators).zip tokens)
    rwa [List.map_snd_zip (by simpa using hlength)] at hsame

/-- Words that are single tokens by themselves are just these tokens when they are put together with
separators between them. The lexemes of a source are such words. -/
theorem ofSource_respaced :
    (∀ words tokens, List.Forall₂ Alone words tokens → words.length ≤ separators.length + 1 →
      Respaced separators tokens (joined separators words)) ∧
    ∀ source : String, (ofSource source).tokens.dropLast.length ≤ separators.length + 1 →
      Respaced separators (ofSource source).tokens.dropLast
        (joined separators ((ofSource source).tokens.dropLast.map Token.lexeme)) := by
  constructor
  · intro words tokens hwords hlength
    have hlexemes : words.map id = tokens.map Token.lexeme := hwords.map_eq fun h => h.lexeme.symm
    rw [List.map_id] at hlexemes
    subst hlexemes
    rw [List.length_map] at hlength
    refine respaced_of_single hseparators hlength fun t ht => ?_
    obtain ⟨word, -, halone⟩ := hwords.flip.exists_mem ht
    exact halone.single
  · exact fun source hlength => respaced_of_single hseparators hlength fun t ht => single_of_mem ht

end

/-- Words with a comment between them, where one of the words is a string that looks like a
    comment. -/
theorem ofSource_respaced_around_comment :
    Respaced [" // or\n", "\t"]
        [.plain .printWord "print" ⟨0, 5, 1⟩,
          { Token.plain .string "\"//\n\"" ⟨0, 5, 1⟩ with literal := some (.string "//\n") },
          .plain .semi ";" ⟨0, 1, 1⟩]
        "print // or\n\"//\n\"\t;" ∧
      Respaced [" // or\n", "\t"] (ofSource "x<=y").tokens.dropLast "x // or\n<=\ty" := by
  -- The comment ends with its newline, so the word behind it is not part of it.
  have hseparators : ∀ s ∈ [" // or\n", "\t"], Separator s.toList := by
    have hcomment : Separator " // or\n".toList :=
      ⟨.blank rfl (@Spacing.comment " or".toList [] (by decide) .nil), _, _, rfl, rfl⟩
    have htab : Separator "\t".toList := ⟨.blank rfl .nil, _, _, rfl, rfl⟩
    exact List.forall_mem_cons.2 ⟨hcomment, List.forall_mem_singleton.2 htab⟩
  have hlexemes : (ofSource "x<=y").tokens.dropLast.map Token.lexeme = ["x", "<=", "y"] := by
    decide +kernel
  obtain ⟨hwords, hsource⟩ := ofSource_respaced hseparators
  constructor
  · refine hwords ["print", "\"//\n\"", ";"] _ (.cons ?_ (.cons ?_ (.cons ?_ .nil))) (by decide)
    all_goals exact ⟨by decide +kernel, by decide +kernel, rfl⟩
  · have hrespaced := hsource "x<=y" (by rw [← List.length_map Token.lexeme, hlexemes]; decide)
    rwa [hlexemes] at hrespaced

end Lexed

end Treewalk
