import Treewalk.Proofs.Number.Nearest
import Treewalk.Proofs.Token.Genuine

/-!
# Tokens are the longest matches

The lexeme of a token is the longest text that stands at its place in the source and that some rule
matches, so no word ends in front of a letter, no number in front of a digit and no slash in front
of another one. What the kind and the literal of the token are then shows in the lexeme and in what
stands next to it (`Token.Fits`).

All this is so for every token of a source in front of the end mark, and no number of a source is
one that cannot be read (`Lexed.longest_match`).
-/

namespace Treewalk

/-- The reserved words. -/
def reservedWords : List String :=
  ["and", "else", "false", "for", "function", "if", "null", "or", "print", "readboolean",
    "readnumber", "readstring", "return", "true", "variable", "while"]

/-- What a token is like between the text in front of it and the text behind it. -/
structure Token.Fits (t : Token) (before behind : List Char) : Prop where
  /-- Some rule is for tokens of this kind with this lexeme. -/
  ruled : (Piece.token t.kind t.lexeme.toList).Ruled
  /-- No rule matches more of the text that starts with the lexeme. -/
  longest : ∀ piece : Piece, piece.Ruled → piece.text <+: t.lexeme.toList ++ behind →
    piece.text.length ≤ t.lexeme.toList.length
  /-- Keywords and identifiers, and no other tokens, are written with letters, digits and
  underscores from a letter or an underscore on. -/
  name : t.kind.isKeyword = true ∨ t.kind = .identifier ↔ Piece.IsName t.lexeme.toList
  /-- Of these the keywords are the reserved words. -/
  reserved : t.kind.isKeyword = true ↔ t.lexeme ∈ reservedWords
  /-- A keyword is the one that its lexeme is the text of. -/
  keyword : t.kind.isKeyword = true → t.kind.text = t.lexeme
  /-- A slash is next to no other slash. -/
  slash : t.kind = .slash → before.getLast? ≠ some '/' ∧ behind.head? ≠ some '/'
  /-- A number has a point in it just if one stands behind its first digits with another digit right
      behind it. -/
  point : t.kind = .number →
    ('.' ∈ t.lexeme.toList ↔ ∃ digits d others,
      t.lexeme.toList ++ behind = digits ++ '.' :: d :: others ∧
      Piece.IsDigits digits ∧ d.isDigit = true)
  /-- The value of a number is the double nearest to what its digits stand for. -/
  number : t.kind = .number →
    ∃ value x, Number.Denotes t.lexeme.toList value ∧ t.literal = some (.number x) ∧
      Number.IsNearest x value
  /-- The value of a string is its lexeme without the quotes at the ends, and has no quotes in
      it. -/
  string : t.kind = .string →
    ∃ body, t.lexeme = "\"" ++ body ++ "\"" ∧ '"' ∉ body.toList ∧ t.literal = some (.string body)

/-! ## Reserved words -/

namespace Kind

/-- The reserved words are the texts of their kinds. -/
theorem map_text_reserved : reserved.map text = reservedWords := rfl

/-- A kind is a keyword if it is the kind of a reserved word. -/
theorem isKeyword_iff {kind : Kind} : kind.isKeyword = true ↔ kind ∈ reserved :=
  List.contains_iff_mem

/-- The text of a keyword is a reserved word. -/
theorem text_mem_of_isKeyword {kind : Kind} (h : kind.isKeyword = true) :
    kind.text ∈ reservedWords := by
  rw [← map_text_reserved]
  exact List.mem_map_of_mem (isKeyword_iff.1 h)

/-- A reserved word is the word of a keyword. -/
theorem isKeyword_ofWord {word : String} (h : word ∈ reservedWords) :
    (ofWord word).isKeyword = true := by
  rw [← map_text_reserved, List.mem_map] at h
  obtain ⟨kind, hkind, htext⟩ := h
  have hfind : (reserved.find? (·.text == word)).isSome = true :=
    List.find?_isSome.2 ⟨kind, hkind, beq_iff_eq.2 htext⟩
  obtain ⟨found, hfound⟩ := Option.isSome_iff_exists.1 hfind
  rw [ofWord, hfound, Option.getD_some, isKeyword_iff]
  exact List.mem_of_find?_eq_some hfound

/-- A word that is not reserved is the word of an identifier. -/
theorem ofWord_of_notMem {word : String} (h : word ∉ reservedWords) :
    ofWord word = .identifier := by
  rw [← map_text_reserved] at h
  have hfind : reserved.find? (·.text == word) = none :=
    List.find?_eq_none.2 fun kind hkind htext => h (beq_iff_eq.1 htext ▸ List.mem_map_of_mem hkind)
  rw [ofWord, hfind, Option.getD_none]

end Kind

namespace Piece

/-- A keyword has one text, which looks like an identifier. -/
theorem isName_text {kind : Kind} (h : kind.isKeyword = true) :
    IsName kind.text.toList ∧ kind.hasOneText = true := by
  cases kind <;> first
    | exact ⟨⟨_, _, rfl, by decide, List.all_eq_true.1 (by decide)⟩, rfl⟩
    | exact absurd h (by decide)

/-! ## Pieces in front of texts -/

section

variable {kind : Kind} {text rest front : List Char}

/-- A token that looks like an identifier is one, or a keyword. -/
theorem Ruled.kind_of_isName (h : (token kind text).Ruled) (hname : IsName text) :
    kind = .identifier ∨ kind.isKeyword = true := by
  obtain ⟨c, rest, rfl, hfirst, -⟩ := hname
  have hword := front_of_startsWord hfirst
  have hdigit (h : c.isDigit = true) : False := nomatch hword.symm.trans (front_of_isDigit h)
  -- The rules are gone through by what they start with: all but words start with a character that
  -- starts no word.
  generalize hpiece : token kind (c :: rest) = piece at h
  cases h with
  | @fixed kind hkind =>
    obtain ⟨rfl, htext⟩ := token.inj hpiece
    obtain ⟨hofWord, -⟩ | ⟨d, htext', hsymbol⟩ | ⟨d, htext', hsymbol⟩ := text_cases hkind
    · by_cases hreserved : kind.text ∈ reservedWords
      · exact .inr (hofWord ▸ Kind.isKeyword_ofWord hreserved)
      · exact .inl (hofWord ▸ Kind.ofWord_of_notMem hreserved)
    · obtain ⟨rfl, -⟩ := List.cons.inj (htext.trans htext')
      exact nomatch hword.symm.trans (front_of_ofSymbol? hsymbol)
    · obtain ⟨rfl, -⟩ := List.cons.inj (htext.trans htext')
      exact nomatch hword.symm.trans (front_of_ofSymbolEq? hsymbol)
  | whole hdigits =>
    obtain ⟨-, rfl⟩ := token.inj hpiece
    exact (hdigit (hdigits.2 c List.mem_cons_self)).elim
  | @decimal digits fraction hdigits =>
    obtain ⟨-, htext⟩ := token.inj hpiece
    obtain ⟨d, others, rfl⟩ := List.exists_cons_of_ne_nil hdigits.1
    obtain ⟨rfl, -⟩ := List.cons.inj htext
    exact (hdigit (hdigits.2 c List.mem_cons_self)).elim
  | string =>
    obtain ⟨-, htext⟩ := token.inj hpiece
    obtain ⟨rfl, -⟩ := List.cons.inj htext
    exact nomatch hfirst
  | identifier => exact .inl (token.inj hpiece).1
  | _ => exact nomatch hpiece

/-- A token that leads fits a rule. -/
theorem Leads.ruled_token (h : (token kind text).Leads front) : (token kind text).Ruled :=
  h.ruled.resolve_right nofun

/-- Where a token leads, no rule matches a longer text. -/
theorem Leads.length_le (h : (token kind text).Leads front) {other : Piece} (hother : other.Ruled)
    (hfront : other.text <+: front) : other.text.length ≤ text.length := by
  cases h with
  | longest _ _ hlongest _ => exact hlongest other hother hfront

/-- What has the text of a kind is of this kind. -/
theorem Leads.eq_of_text (h : (token kind text).Leads front) {other : Kind}
    (hother : other.hasOneText = true) (htext : other.text.toList = text) : kind = other := by
  cases h with
  | longest _ _ _ hfixed => exact (token.inj (hfixed other hother htext)).1

/-- Keywords and identifiers, and no other tokens, look like identifiers. -/
theorem Leads.isName_iff (h : (token kind text).Leads front) :
    kind.isKeyword = true ∨ kind = .identifier ↔ IsName text := by
  constructor
  · rintro (hkeyword | rfl)
    · obtain ⟨hname, hkind⟩ := isName_text hkeyword
      rwa [h.ruled_token.eq_text hkind]
    · exact h.ruled_token.isName
  · exact fun hname => (h.ruled_token.kind_of_isName hname).symm

/-- The keywords are the tokens whose text is a reserved word. -/
theorem Leads.isKeyword_iff (h : (token kind text).Leads front) :
    kind.isKeyword = true ↔ String.ofList text ∈ reservedWords := by
  constructor
  · intro hkeyword
    rw [h.ruled_token.eq_text (isName_text hkeyword).2, String.ofList_toList]
    exact Kind.text_mem_of_isKeyword hkeyword
  · intro hreserved
    rw [← Kind.map_text_reserved, List.mem_map] at hreserved
    obtain ⟨other, hother, htext⟩ := hreserved
    have hkeyword := Kind.isKeyword_iff.2 hother
    rwa [h.eq_of_text (isName_text hkeyword).2 (by rw [htext, String.toList_ofList])]

/-- No slash stands behind a slash. -/
theorem Leads.head?_ne_slash (h : (token .slash text).Leads (text ++ rest)) :
    rest.head? ≠ some '/' := by
  intro hhead
  obtain ⟨others, rfl⟩ := List.head?_eq_some_iff.1 hhead
  obtain rfl := h.ruled_token.eq_text rfl
  exact absurd (h.length_le (.comment List.not_mem_nil) ⟨others, rfl⟩) (by decide)

/-- A number has a point in it just if one stands behind its first digits with another digit right
    behind it. -/
theorem Leads.point_mem_iff (h : (token .number text).Leads (text ++ rest)) :
    '.' ∈ text ↔ ∃ digits d others, text ++ rest = digits ++ '.' :: d :: others ∧ IsDigits digits ∧
      d.isDigit = true := by
  constructor
  · intro hpoint
    obtain hdigits | ⟨digits, fraction, rfl, hdigits, hfraction⟩ := h.ruled_token.number_cases
    · exact absurd (hdigits.2 _ hpoint) (by decide)
    · obtain ⟨d, others, rfl⟩ := List.exists_cons_of_ne_nil hfraction.1
      exact ⟨digits, d, others ++ rest, by simp, hdigits, hfraction.2 d List.mem_cons_self⟩
  · rintro ⟨digits, d, others, htext, hdigits, hd⟩
    -- Up to the digit behind the point this is a number, which the token is at least as long as.
    have hfraction : IsDigits [d] := ⟨List.cons_ne_nil _ _, List.forall_mem_singleton.2 hd⟩
    have hfront : digits ++ ['.', d] <+: text ++ rest := ⟨others, by simp [htext]⟩
    have hlength := h.length_le (.decimal hdigits hfraction) hfront
    have hpoint : '.' ∈ digits ++ ['.', d] := by simp
    exact (List.prefix_of_prefix_length_le hfront (List.prefix_append text rest) hlength).subset
      hpoint

/-- Where a piece that some rule allows ends with a slash, one more slash gives a longer one. -/
theorem Ruled.exists_append_slash {piece : Piece} (h : piece.Ruled)
    (hlast : piece.text.getLast? = some '/') :
    ∃ other : Piece, other.Ruled ∧ other.text = piece.text ++ ['/'] := by
  have hmem : '/' ∈ piece.text := List.mem_of_getLast? hlast
  cases h with
  | blanks _ hblank => exact absurd (hblank _ hmem) (by decide)
  | newline => exact absurd hlast (by decide)
  | @comment body hbody => exact ⟨_, @Ruled.comment (body ++ ['/']) (by simp [hbody]), rfl⟩
  | @fixed kind hkind =>
    rw [Piece.text] at hlast hmem ⊢
    obtain ⟨-, c, rest, htext, hfirst, hothers⟩ | ⟨c, htext, -⟩ | ⟨c, htext, -⟩ := text_cases hkind
    · rw [htext] at hmem
      obtain rfl | hmem := List.mem_cons.1 hmem
      · exact absurd hfirst (by decide)
      · exact absurd (hothers _ hmem) (by decide)
    · -- The one symbol that is a slash starts a comment with the other.
      rw [htext] at hlast ⊢
      obtain rfl := Option.some.inj hlast
      exact ⟨_, .comment List.not_mem_nil, rfl⟩
    · rw [htext] at hlast
      exact absurd (show '=' = '/' from Option.some.inj hlast) (by decide)
  | whole hdigits => exact absurd (hdigits.2 _ hmem) (by decide)
  | @decimal digits fraction hdigits hfraction =>
    have hmem' : '/' ∈ digits ∨ '/' ∈ fraction := by simpa [Piece.text] using hmem
    obtain hmem' | hmem' := hmem'
    · exact absurd (hdigits.2 _ hmem') (by decide)
    · exact absurd (hfraction.2 _ hmem') (by decide)
  | @string body =>
    rw [Piece.text, ← List.cons_append, List.getLast?_concat] at hlast
    exact absurd hlast (by decide)
  | identifier hfirst hothers =>
    obtain rfl | hmem := List.mem_cons.1 hmem
    · exact absurd hfirst (by decide)
    · exact absurd (hothers _ hmem) (by decide)
  | @unterminated body hbody =>
    exact ⟨_, @Ruled.unterminated (body ++ ['/']) (by simp [hbody]), rfl⟩

/-- A piece in front of a slash does not end with a slash. -/
theorem Leads.getLast?_ne_slash {piece : Piece} (h : piece.Leads (piece.text ++ '/' :: rest)) :
    piece.text.getLast? ≠ some '/' := by
  intro hlast
  generalize htext : piece.text ++ '/' :: rest = text at h
  -- The slash behind the piece would make it longer, or a stray slash would be a token.
  cases h with
  | longest hruled _ hlongest _ =>
    obtain ⟨other, hother, hothertext⟩ := hruled.exists_append_slash hlast
    have hlength := hlongest other hother ⟨rest, by simp [hothertext, ← htext]⟩
    rw [hothertext, List.length_append] at hlength
    exact absurd hlength (Nat.not_succ_le_self _)
  | @stray c rest hnone =>
    obtain rfl : c = '/' := Option.some.inj hlast
    exact hnone _ (@Ruled.fixed .slash rfl) ⟨rest, rfl⟩

end

/-! ## Tokens in sources -/

/-- In front of a piece that starts with a slash there is no other slash. -/
theorem Tiles.getLast?_ne_slash {before behind : List Piece} {piece : Piece} {text : List Char}
    (h : Tiles (before ++ piece :: behind) text) (hhead : piece.text.head? = some '/') :
    (before.flatMap Piece.text).getLast? ≠ some '/' := by
  obtain rfl | ⟨front, last, rfl⟩ := List.eq_nil_or_concat' before
  · exact nofun
  · obtain ⟨others, htext⟩ := List.head?_eq_some_iff.1 hhead
    have hne := h.text_ne_nil last (by simp)
    rw [List.append_assoc, List.singleton_append] at h
    have hleads := h.leads_append
    rw [List.flatMap_cons, htext] at hleads
    rw [List.flatMap_append, List.flatMap_singleton, List.getLast?_append_of_ne_nil _ hne]
    exact hleads.getLast?_ne_slash

/-- The text of a number denotes one. -/
theorem Ruled.exists_denotes {text : List Char} (h : (token .number text).Ruled) :
    ∃ value, Number.Denotes text value := by
  obtain hdigits | ⟨digits, fraction, rfl, hdigits, hfraction⟩ := h.number_cases
  · exact ⟨_, .whole hdigits.1 hdigits.2⟩
  · exact ⟨_, .decimal hdigits.1 hdigits.2 hfraction.2⟩

/-- The token of a number has the double nearest to what the digits stand for. -/
theorem Ruled.exists_literal_number {text : List Char} {span : Span} {t : Token}
    (h : (token .number text).Ruled) (ht : token? (token .number text, span) = some t) :
    ∃ value x, Number.Denotes text value ∧ t.literal = some (.number x) ∧
      Number.IsNearest x value := by
  obtain ⟨value, hdenotes⟩ := h.exists_denotes
  obtain ⟨x, hread, hnearest⟩ := hdenotes.exists_nearest
  rw [token?, hread] at ht
  obtain rfl := Option.some.inj ht
  exact ⟨value, x, hdenotes, rfl, hnearest⟩

/-- The token of a string has what is between the quotes. -/
theorem Ruled.exists_literal_string {text : List Char} {span : Span} {t : Token}
    (h : (token .string text).Ruled) (ht : token? (token .string text, span) = some t) :
    ∃ body, String.ofList text = "\"" ++ body ++ "\"" ∧ '"' ∉ body.toList ∧
      t.literal = some (.string body) := by
  obtain ⟨body, rfl, hbody⟩ := h.exists_body
  obtain rfl := Option.some.inj ht
  refine ⟨String.ofList body, ?_, by rwa [String.toList_ofList], ?_⟩
  · rw [← String.toList_inj]
    simp
  · simp [unquote]

/-- The token of a piece of a tiling fits between the texts of the pieces on both sides. -/
theorem Tiles.fits {before behind : List Piece} {text : List Char} {t : Token}
    (h : Tiles (before ++ token t.kind t.lexeme.toList :: behind) text)
    (ht : token? (token t.kind t.lexeme.toList, t.span) = some t) :
    t.Fits (before.flatMap Piece.text) (behind.flatMap Piece.text) := by
  have hleads : (token t.kind t.lexeme.toList).Leads
      (t.lexeme.toList ++ behind.flatMap Piece.text) :=
    h.leads_append
  have hruled := hleads.ruled_token
  have hlongest (other : Piece) (hother : other.Ruled)
      (hfront : other.text <+: t.lexeme.toList ++ _) :=
    hleads.length_le hother hfront
  -- The last five conditions are for one kind each: keywords, their texts, slashes, numbers and
  -- strings.
  refine ⟨hruled, hlongest, hleads.isName_iff, ?_, ?_, ?_, ?_, ?_, ?_⟩
  · rw [hleads.isKeyword_iff, String.ofList_toList]
  · intro hkeyword
    rw [← String.toList_inj, hruled.eq_text (isName_text hkeyword).2]
  · intro hkind
    rw [hkind] at hleads hruled
    refine ⟨h.getLast?_ne_slash ?_, hleads.head?_ne_slash⟩
    rw [Piece.text, hruled.eq_text rfl]
    rfl
  · intro hkind
    rw [hkind] at hleads
    exact hleads.point_mem_iff
  · intro hkind
    rw [hkind] at hruled ht
    exact hruled.exists_literal_number ht
  · intro hkind
    rw [hkind] at hruled ht
    obtain ⟨body, hlexeme, hrest⟩ := hruled.exists_literal_string ht
    rw [String.ofList_toList] at hlexeme
    exact ⟨body, hlexeme, hrest⟩

/-- No diagnostic is about a number. -/
theorem Reports.fault_ne {located : Piece × Span} {d : Diagnostic} (h : Reports located d)
    (text : String) : d.fault ≠ .lexical (.invalidNumber text) := by
  cases h <;> exact nofun

end Piece

/-- A token of a source in front of its end mark stands between two parts of the source, and fits
there; and no diagnostic of a source says that a number is invalid. -/
theorem Lexed.longest_match (source : String) :
    (∀ t ∈ (ofSource source).tokens.dropLast, ∃ before behind : String,
      source = before ++ t.lexeme ++ behind ∧
      t.span.start = before.utf8ByteSize ∧ t.span.stop = (before ++ t.lexeme).utf8ByteSize ∧
      t.Fits before.toList behind.toList) ∧
    ∀ d ∈ (ofSource source).diagnostics, ∀ text, d.fault ≠ .lexical (.invalidNumber text) := by
  have htiles := Piece.tiles_all source.toList
  constructor
  · intro t ht
    obtain ⟨before, behind, hpieces, hspan, htoken⟩ := exists_piece_of_mem ht
    rw [hpieces] at htiles
    -- The pieces fill the source, so those in front of a token and those behind it are the two
    -- texts around it.
    have hsource : source.toList = before.flatMap Piece.text ++ t.lexeme.toList ++
        behind.flatMap Piece.text := by
      rw [← htiles.flatMap_text, List.flatMap_append, List.flatMap_cons, ← List.append_assoc,
        Piece.text]
    obtain ⟨hsplit, hstart, hstop⟩ := Place.split_spanOf hsource
    rw [← hspan] at hstart hstop
    rw [String.ofList_toList] at hsplit hstop
    refine ⟨_, _, hsplit, hstart, hstop, ?_⟩
    rw [String.toList_ofList, String.toList_ofList]
    exact htiles.fits htoken
  · intro d hd text
    obtain ⟨located, -, hreports⟩ := (Piece.forall₂_reports htiles).flip.exists_mem hd
    exact hreports.fault_ne text

example : (Lexed.ofSource "printer/print//or").tokens.map Token.kind =
    [.identifier, .slash, .printWord, .eof] := by cbv

end Treewalk
