import Treewalk.Proofs.Token.Tiling

/-!
# What the tokens of a source are like

Tokens can be put together by hand, so that kind, text and literal have nothing to do with each
other. Those of a source are *genuine* (`Lexed.genuine_of_mem_tokens`): the kind determines text and
literal where it is that of a keyword, an operator or a delimiter, names are not reserved, and no
string holds a quote.
-/

namespace Treewalk

namespace Piece

/-- Is this what an identifier looks like? -/
def IsName (text : List Char) : Prop :=
  ∃ c rest, text = c :: rest ∧ startsWord c = true ∧ ∀ d ∈ rest, continuesWord d = true

end Piece

/-- What a token of a source is like, wherever it is. -/
structure Token.Genuine (t : Token) : Prop where
  fixed : t.kind.hasOneText = true → t.lexeme = t.kind.text ∧ t.literal = none
  name : t.kind = .identifier →
    Piece.IsName t.lexeme.toList ∧ Kind.ofWord t.lexeme = .identifier ∧ t.literal = none
  string : ∀ body, t.literal = some (.string body) → '"' ∉ body.toList

namespace Piece

section

variable {kind : Kind} {text : List Char}

/-- A piece of a kind with one text has this text. -/
theorem Ruled.eq_text (h : (token kind text).Ruled) (hkind : kind.hasOneText = true) :
    text = kind.text.toList := by
  cases h with
  | fixed => rfl
  | _ => exact nomatch hkind

/-- An identifier looks like one. -/
theorem Ruled.isName (h : (token .identifier text).Ruled) : IsName text := by
  generalize hpiece : token .identifier text = piece at h
  cases h with
  | identifier hfirst hothers =>
    cases hpiece
    exact ⟨_, _, rfl, hfirst, hothers⟩
  | fixed hkind =>
    cases hpiece
    exact nomatch hkind
  | _ => exact nomatch hpiece

/-- A string has quotes at its ends and no others. -/
theorem Ruled.exists_body (h : (token .string text).Ruled) :
    ∃ body, text = '"' :: (body ++ ['"']) ∧ '"' ∉ body := by
  generalize hpiece : token .string text = piece at h
  cases h with
  | string hbody =>
    cases hpiece
    exact ⟨_, rfl, hbody⟩
  | fixed hkind =>
    cases hpiece
    exact nomatch hkind
  | _ => exact nomatch hpiece

/-- The text of a string has no quote in it. -/
theorem Ruled.quote_notMem_unquote (h : (token .string text).Ruled) : '"' ∉ unquote text := by
  obtain ⟨body, rfl, hbody⟩ := h.exists_body
  simpa [unquote] using hbody

/-- A piece is an identifier only if it is no reserved word. -/
theorem Leads.ofWord_eq {front : List Char} (h : (token .identifier text).Leads front) :
    Kind.ofWord (String.ofList text) = .identifier := by
  cases h with
  | longest hruled _ _ hfixed =>
    obtain hword | ⟨hkind, htext⟩ := ofWord_cases (String.ofList text)
    · exact hword
    · -- A piece with the text of a keyword is this keyword.
      have hpiece := hfixed _ hkind (by rw [htext, String.toList_ofList]; rfl)
      exact (Piece.token.inj hpiece).1.symm

end

/-- The token of a piece that is at the front of some text is genuine. -/
theorem Leads.genuine {located : Piece × Span} {front : List Char} (h : located.1.Leads front)
    {t : Token} (ht : token? located = some t) : t.Genuine := by
  obtain ⟨piece, span⟩ := located
  -- Numbers, strings, and pieces whose kind says all make different kinds of tokens; all else makes
  -- none.
  obtain hruled | ⟨c, rfl⟩ := h.ruled
  · unfold token? at ht
    split at ht
    · next text _ heq =>
      cases heq
      obtain ⟨value, -, rfl⟩ := Option.map_eq_some_iff.1 ht
      refine ⟨?_, ?_, ?_⟩
      · rintro ⟨⟩
      · rintro ⟨⟩
      · rintro _ ⟨⟩
    · next text _ heq =>
      cases heq
      obtain rfl := Option.some.inj ht
      refine ⟨?_, ?_, ?_⟩
      · rintro ⟨⟩
      · rintro ⟨⟩
      · rintro _ ⟨⟩
        rw [String.toList_ofList]
        exact hruled.quote_notMem_unquote
    · next kind text _ hnumber hstring heq =>
      cases heq
      obtain rfl := Option.some.inj ht
      refine ⟨fun hkind => ⟨?_, rfl⟩, ?_, ?_⟩
      · rw [Token.plain, hruled.eq_text hkind, String.ofList_toList]
      · rintro ⟨⟩
        rw [Token.plain, String.toList_ofList]
        exact ⟨hruled.isName, h.ofWord_eq, rfl⟩
      · rintro _ ⟨⟩
    · cases ht
  · cases ht

end Piece

/-- The end mark is genuine wherever it stands. -/
theorem Token.genuine_eof (offset line : Nat) : (eof offset line).Genuine :=
  ⟨nofun, nofun, nofun⟩

/-- The tokens of a source are genuine. -/
theorem Lexed.genuine_of_mem_tokens {source : String} {t : Token}
    (h : t ∈ (ofSource source).tokens) : t.Genuine := by
  obtain h | h := List.mem_append.1 h
  · have hfront : t ∈ (ofSource source).tokens.dropLast := by
      rwa [ofSource, ofText, List.dropLast_concat]
    obtain ⟨before, behind, hpieces, -, htoken⟩ := exists_piece_of_mem hfront
    have htiles := hpieces ▸ Piece.tiles_all source.toList
    exact htiles.leads_append.genuine htoken
  · obtain rfl := List.mem_singleton.1 h
    exact Token.genuine_eof _ _

end Treewalk
