import Treewalk.Token.Piece

/-!
# The rules for pieces

Which texts are pieces at all is a matter of rules, one or more for each kind of piece
(`Piece.Ruled`). What is taken from the front of a text is then said without any cutting: the
longest text that a rule matches, and a single character where no rule matches (`Piece.Leads`). A
word or symbol that has a kind of its own is of that kind, although the rule for identifiers matches
the word as well.

`Piece.Tiles` cuts a whole text in this way. The main statement is `Piece.tiles_all`: the pieces
that `Piece.all` makes are the longest ones, from the first to the last.
-/

namespace Treewalk

/-- Are all tokens of the kind written in the same way? -/
def Kind.hasOneText : Kind → Bool
  | number | string | unterminatedString | identifier | newline | eof => false
  | _ => true

namespace Piece

/-! ## Rules -/

/-- Some digits. -/
def IsDigits (text : List Char) : Prop := text ≠ [] ∧ ∀ c ∈ text, c.isDigit = true

/-- The pieces that some rule allows. No rule is about a stray character. -/
inductive Ruled : Piece → Prop where
  | blanks {text : List Char} (hne : text ≠ []) (hblank : ∀ c ∈ text, isBlank c = true) :
      Ruled (.blanks text)
  | newline : Ruled .newline
  | comment {body : List Char} (hbody : '\n' ∉ body) : Ruled (.comment ('/' :: '/' :: body))
  | fixed {kind : Kind} (hkind : kind.hasOneText = true) : Ruled (.token kind kind.text.toList)
  | whole {digits : List Char} (hdigits : IsDigits digits) : Ruled (.token .number digits)
  | decimal {digits fraction : List Char} (hdigits : IsDigits digits)
      (hfraction : IsDigits fraction) :
      Ruled (.token .number (digits ++ '.' :: fraction))
  | string {body : List Char} (hbody : '"' ∉ body) : Ruled (.token .string ('"' :: (body ++ ['"'])))
  | identifier {c : Char} {rest : List Char} (hfirst : startsWord c = true)
      (hothers : ∀ d ∈ rest, continuesWord d = true) : Ruled (.token .identifier (c :: rest))
  | unterminated {body : List Char} (hbody : '"' ∉ body) : Ruled (.unterminated ('"' :: body))

/-- The piece at the front of a text: the longest one that a rule allows there, or a single
    character if no rule allows any. Of two rules for the same text, the one for the text itself
    wins. -/
inductive Leads : Piece → List Char → Prop where
  | longest {piece : Piece} {text : List Char} (hruled : piece.Ruled) (hfront : piece.text <+: text)
      (hlongest : ∀ other : Piece, other.Ruled → other.text <+: text →
        other.text.length ≤ piece.text.length)
      (hfixed : ∀ kind : Kind, kind.hasOneText = true → kind.text.toList = piece.text →
        piece = .token kind piece.text) :
      Leads piece text
  | stray {c : Char} {rest : List Char} (hnone : ∀ other : Piece, other.Ruled →
      ¬ other.text <+: c :: rest) :
      Leads (.stray c) (c :: rest)

/-- A text in pieces, each the one at the front of what is left. -/
inductive Tiles : List Piece → List Char → Prop where
  | nil : Tiles [] []
  | cons {piece : Piece} {pieces : List Piece} {rest : List Char}
      (hfirst : piece.Leads (piece.text ++ rest)) (hothers : Tiles pieces rest) :
      Tiles (piece :: pieces) (piece.text ++ rest)

/-! ## First characters

The first character of a text tells which rules may match it. -/

/-- The classes of first characters. -/
inductive Front where
  | blank
  | newline
  | digit
  | word
  | quote
  | symbol
deriving DecidableEq

/-- The class of a first character. -/
def front (c : Char) : Front :=
  if isBlank c then .blank
  else if c = '\n' then .newline
  else if c.isDigit then .digit
  else if startsWord c then .word
  else if c = '"' then .quote
  else .symbol

section

variable {c : Char}

/-- There are four blanks. -/
theorem cases_of_isBlank (h : isBlank c = true) : c = ' ' ∨ c = '\t' ∨ c = '\r' ∨ c = '\x0c' := by
  simpa only [isBlank, Bool.or_eq_true, beq_iff_eq, or_assoc] using h

/-- A blank is sorted with the blanks. -/
theorem front_of_isBlank (h : isBlank c = true) : front c = .blank := if_pos h

/-- Digits come in front of all letters. -/
theorem not_isDigit_of_isAlpha (h : c.isAlpha = true) : ¬ c.isDigit = true := by
  intro hdigit
  have hhigh : c.val ≤ 57 := of_decide_eq_true (Bool.and_eq_true_iff.1 hdigit).2
  obtain hupper | hlower := Bool.or_eq_true_iff.1 h
  · have hlow : 65 ≤ c.val := (of_decide_eq_true hupper).1
    exact absurd (UInt32.le_trans hlow hhigh) (by decide)
  · have hlow : 97 ≤ c.val := of_decide_eq_true (Bool.and_eq_true_iff.1 hlower).1
    exact absurd (UInt32.le_trans hlow hhigh) (by decide)

/-- A digit is sorted with the digits. -/
theorem front_of_isDigit (h : c.isDigit = true) : front c = .digit := by
  have hblank : ¬ isBlank c = true := by
    intro hblank
    obtain rfl | rfl | rfl | rfl := cases_of_isBlank hblank <;> exact nomatch h
  have hnewline : c ≠ '\n' := by
    rintro rfl
    exact nomatch h
  rw [front, if_neg hblank, if_neg hnewline, if_pos h]

/-- What starts a word is sorted with the words. -/
theorem front_of_startsWord (h : startsWord c = true) : front c = .word := by
  -- The question is asked behind those for blanks, newlines and digits, none of which starts a
  -- word.
  have hblank : ¬ isBlank c = true := by
    intro hblank
    obtain rfl | rfl | rfl | rfl := cases_of_isBlank hblank <;> exact nomatch h
  have hnewline : c ≠ '\n' := by
    rintro rfl
    exact nomatch h
  have hdigit : ¬ c.isDigit = true := by
    intro hdigit
    simp only [startsWord, Bool.or_eq_true, beq_iff_eq] at h
    obtain h | rfl := h
    · exact not_isDigit_of_isAlpha h hdigit
    · exact absurd hdigit (by decide)
  rw [front, if_neg hblank, if_neg hnewline, if_neg hdigit, if_pos h]

/-- What is a symbol alone is sorted with the symbols. -/
theorem front_of_ofSymbol? {kind : Kind} (h : ofSymbol? c = some kind) : front c = .symbol := by
  unfold ofSymbol? at h
  split at h <;> first | rfl | exact nomatch h

/-- What is a symbol with an equals sign behind it is one without. -/
theorem exists_ofSymbol?_of_ofSymbolEq? {kind : Kind} (h : ofSymbolEq? c = some kind) :
    ∃ kind', ofSymbol? c = some kind' := by
  unfold ofSymbolEq? at h
  split at h <;> first | exact ⟨_, rfl⟩ | exact nomatch h

/-- What is a symbol with an equals sign is sorted with the symbols. -/
theorem front_of_ofSymbolEq? {kind : Kind} (h : ofSymbolEq? c = some kind) : front c = .symbol := by
  obtain ⟨kind', hsymbol⟩ := exists_ofSymbol?_of_ofSymbolEq? h
  exact front_of_ofSymbol? hsymbol

end

/-- The kinds with one text are the reserved words, the symbols of one character, and those with an
    equals sign behind it. -/
theorem text_cases {kind : Kind} (h : kind.hasOneText = true) :
    (Kind.ofWord kind.text = kind ∧
      ∃ c rest, kind.text.toList = c :: rest ∧ startsWord c = true ∧
        ∀ d ∈ rest, continuesWord d = true) ∨
    (∃ c, kind.text.toList = [c] ∧ ofSymbol? c = some kind) ∨
    ∃ c, kind.text.toList = [c, '='] ∧ ofSymbolEq? c = some kind := by
  cases kind with
  | number | string | unterminatedString | identifier | newline | eof => exact nomatch h
  | eqEq | ne | le | ge => exact .inr (.inr ⟨_, rfl, rfl⟩)
  | plus | minus | star | slash | percent | caret | bang | eq | lt | gt =>
    exact .inr (.inl ⟨_, rfl, rfl⟩)
  | lParen | rParen | lBracket | rBracket | lBrace | rBrace => exact .inr (.inl ⟨_, rfl, rfl⟩)
  | comma | semi | dot => exact .inr (.inl ⟨_, rfl, rfl⟩)
  | _ => exact .inl ⟨by decide, _, _, rfl, by decide, List.all_eq_true.1 (by decide)⟩

/-! ## What follows the first character -/

/-- What may stand behind a first character in a text that a rule matches. -/
def MayFollow (c : Char) (rest : List Char) : Prop :=
  match front c with
  | .blank => ∀ d ∈ rest, isBlank d = true
  | .newline => rest = []
  | .digit => (∀ d ∈ rest, d.isDigit = true) ∨
      ∃ digits fraction, rest = digits ++ '.' :: fraction ∧ (∀ d ∈ digits, d.isDigit = true) ∧
        IsDigits fraction
  | .word => ∀ d ∈ rest, continuesWord d = true
  | .quote => '"' ∉ rest ∨ ∃ body, rest = body ++ ['"'] ∧ '"' ∉ body
  | .symbol => (∃ body, c = '/' ∧ rest = '/' :: body ∧ '\n' ∉ body) ∨
      (∃ kind, ofSymbol? c = some kind ∧ rest = []) ∨ ∃ kind, ofSymbolEq? c = some kind ∧
        rest = ['=']

/-- A text that a rule matches has a first character, and what may follow it. -/
theorem Ruled.exists_cons {piece : Piece} (h : piece.Ruled) :
    ∃ c rest, piece.text = c :: rest ∧ MayFollow c rest := by
  cases h with
  | @blanks text hne hblank =>
    obtain ⟨c, rest, rfl⟩ := List.exists_cons_of_ne_nil hne
    obtain ⟨hfirst, hothers⟩ := List.forall_mem_cons.1 hblank
    refine ⟨c, rest, rfl, ?_⟩
    rw [MayFollow, front_of_isBlank hfirst]
    exact hothers
  | newline => exact ⟨_, _, rfl, rfl⟩
  | comment hbody => exact ⟨_, _, rfl, .inl ⟨_, rfl, rfl, hbody⟩⟩
  -- Fixed texts are words, single characters, or two characters the second of which is an equals
  -- sign.
  | fixed hkind =>
    obtain ⟨-, c, rest, htext, hfirst, hothers⟩ | ⟨c, htext, hsymbol⟩ | ⟨c, htext, hsymbol⟩ :=
      text_cases hkind
    · refine ⟨c, rest, htext, ?_⟩
      rw [MayFollow, front_of_startsWord hfirst]
      exact hothers
    · refine ⟨c, [], htext, ?_⟩
      rw [MayFollow, front_of_ofSymbol? hsymbol]
      exact .inr (.inl ⟨_, hsymbol, rfl⟩)
    · refine ⟨c, ['='], htext, ?_⟩
      rw [MayFollow, front_of_ofSymbolEq? hsymbol]
      exact .inr (.inr ⟨_, hsymbol, rfl⟩)
  | @whole digits hdigits =>
    obtain ⟨c, rest, rfl⟩ := List.exists_cons_of_ne_nil hdigits.1
    obtain ⟨hfirst, hothers⟩ := List.forall_mem_cons.1 hdigits.2
    refine ⟨c, rest, rfl, ?_⟩
    rw [MayFollow, front_of_isDigit hfirst]
    exact .inl hothers
  | @decimal digits fraction hdigits hfraction =>
    obtain ⟨c, rest, rfl⟩ := List.exists_cons_of_ne_nil hdigits.1
    obtain ⟨hfirst, hothers⟩ := List.forall_mem_cons.1 hdigits.2
    refine ⟨c, rest ++ '.' :: fraction, rfl, ?_⟩
    rw [MayFollow, front_of_isDigit hfirst]
    exact .inr ⟨rest, fraction, rfl, hothers, hfraction⟩
  | string hbody => exact ⟨_, _, rfl, .inr ⟨_, rfl, hbody⟩⟩
  | @identifier c rest hfirst hothers =>
    refine ⟨c, rest, rfl, ?_⟩
    rw [MayFollow, front_of_startsWord hfirst]
    exact hothers
  | unterminated hbody => exact ⟨_, _, rfl, .inl hbody⟩

/-- The piece with the text `c :: body` leads if nothing longer may follow `c` in the text. -/
theorem Leads.of_mayFollow {piece : Piece} {c : Char} {body rest : List Char} (hruled : piece.Ruled)
    (htext : piece.text = c :: body) (hbody : body <+: rest)
    (hlongest : ∀ other, other <+: rest → MayFollow c other → other.length ≤ body.length)
    (hfixed : ∀ kind : Kind, kind.hasOneText = true → kind.text.toList = c :: body →
      piece = .token kind (c :: body)) : piece.Leads (c :: rest) := by
  refine .longest hruled ?_ ?_ (htext ▸ hfixed)
  · rw [htext, List.prefix_cons_inj]
    exact hbody
  · intro other hother hfront
    obtain ⟨d, others, htext', hfollow⟩ := hother.exists_cons
    rw [htext', List.cons_prefix_cons] at hfront
    obtain ⟨rfl, hfront⟩ := hfront
    rw [htext, htext', List.length_cons, List.length_cons]
    exact Nat.succ_le_succ (hlongest others hfront hfollow)

/-- The text of a kind that has only one starts like a word or a symbol. -/
theorem front_of_fixed {kind : Kind} (h : kind.hasOneText = true) {c : Char} {rest : List Char}
    (htext : kind.text.toList = c :: rest) : front c = .word ∨ front c = .symbol := by
  obtain ⟨-, d, others, htext', hfirst, -⟩ | ⟨d, htext', hsymbol⟩ | ⟨d, htext', hsymbol⟩ :=
    text_cases h
  · obtain ⟨rfl, -⟩ := List.cons.inj (htext.symm.trans htext')
    exact .inl (front_of_startsWord hfirst)
  · obtain ⟨rfl, -⟩ := List.cons.inj (htext.symm.trans htext')
    exact .inr (front_of_ofSymbol? hsymbol)
  · obtain ⟨rfl, -⟩ := List.cons.inj (htext.symm.trans htext')
    exact .inr (front_of_ofSymbolEq? hsymbol)

/-! ## Cutting

The piece that is cut off leads, branch by branch. -/

section

variable {c : Char} {rest : List Char}

/-- What has a property as far as it goes is no longer than the longest run that has it. -/
theorem length_le_run {p : Char → Bool} {front text : List Char} (h : front <+: text)
    (hall : ∀ d ∈ front, p d = true) : front.length ≤ (run p text).1.length := by
  obtain ⟨behind, rfl⟩ := h
  rw [run, List.takeWhile_append_of_pos hall, List.length_append]
  exact Nat.le_add_right _ _

/-- A run of characters is a part in front of the text. -/
theorem isPrefix_run (p : Char → Bool) (text : List Char) : (run p text).1 <+: text :=
  List.takeWhile_prefix p

/-- All characters of a run have its property. -/
theorem of_mem_run {p : Char → Bool} {text : List Char} {d : Char} (h : d ∈ (run p text).1) :
    p d = true := by
  rw [run] at h
  exact List.all_eq_true.1 List.all_takeWhile d h

/-- A run of blanks is a piece of its own. -/
theorem leads_blanks (h : isBlank c = true) :
    (blanks (c :: (run isBlank rest).1)).Leads (c :: rest) := by
  have hall : ∀ d ∈ c :: (run isBlank rest).1, isBlank d = true :=
    List.forall_mem_cons.2 ⟨h, fun d hd => of_mem_run hd⟩
  refine .of_mayFollow (.blanks (List.cons_ne_nil _ _) hall) rfl (isPrefix_run _ _) ?_ ?_
  · intro other hfront hfollow
    rw [MayFollow, front_of_isBlank h] at hfollow
    exact length_le_run hfront hfollow
  · intro kind hkind htext
    have hfront := front_of_fixed hkind htext
    rw [front_of_isBlank h] at hfront
    exact absurd hfront (by decide)

/-- A newline is a piece of its own. -/
theorem leads_newline : newline.Leads ('\n' :: rest) := by
  refine .of_mayFollow .newline rfl (List.nil_prefix) ?_ ?_
  · intro other _ hfollow
    obtain rfl : other = [] := hfollow
    exact Nat.le_refl 0
  · intro kind hkind htext
    exact absurd (front_of_fixed hkind htext) (by decide)

/-- A comment is a piece of its own, up to the end of the line. -/
theorem leads_comment (hhead : rest.head? = some '/') :
    (comment ('/' :: (run (· != '\n') rest).1)).Leads ('/' :: rest) := by
  obtain ⟨others, rfl⟩ := List.head?_eq_some_iff.1 hhead
  have hrun : (run (· != '\n') ('/' :: others)).1 = '/' :: (run (· != '\n') others).1 := rfl
  have hbody : '\n' ∉ (run (· != '\n') others).1 := fun hmem => by simpa using of_mem_run hmem
  refine .of_mayFollow (hrun ▸ .comment hbody) rfl (isPrefix_run _ _) ?_ ?_
  · intro other hfront hfollow
    obtain ⟨body, -, rfl, hnewline⟩ | ⟨_, _, rfl⟩ | ⟨_, hsymbol, -⟩ := hfollow
    · -- No other comment is longer, since there is no newline in any.
      refine length_le_run hfront fun d hd => ?_
      obtain rfl | hd := List.mem_cons.1 hd
      · rfl
      · exact bne_iff_ne.2 fun heq => hnewline (heq ▸ hd)
    · exact Nat.zero_le _
    · exact nomatch hsymbol
  · intro kind hkind htext
    obtain ⟨-, d, _, htext', hfirst, -⟩ | ⟨d, htext', -⟩ | ⟨d, htext', -⟩ := text_cases hkind
    · rw [htext, List.cons.injEq] at htext'
      rw [← htext'.1] at hfirst
      exact nomatch hfirst
    · rw [htext, hrun] at htext'
      exact nomatch htext'
    · rw [htext, hrun] at htext'
      simp at htext'

/-- The word of a kind is a reserved one with this text, or the kind is that of identifiers. -/
theorem ofWord_cases (word : String) :
    Kind.ofWord word = .identifier ∨
      (Kind.ofWord word).hasOneText = true ∧ (Kind.ofWord word).text = word := by
  rw [Kind.ofWord]
  cases hfind : Kind.reserved.find? (·.text == word) with
  | none => exact .inl rfl
  | some kind =>
    have htext := List.find?_some hfind
    have hreserved : ∀ k ∈ Kind.reserved, k.hasOneText = true := by decide
    exact .inr ⟨hreserved kind (List.mem_of_find?_eq_some hfind), beq_iff_eq.1 htext⟩

/-- A word is a piece of its own, with the kind of a keyword if it is one. -/
theorem leads_word (h : startsWord c = true) :
    (token (Kind.ofWord (String.ofList (c :: (run continuesWord rest).1)))
      (c :: (run continuesWord rest).1)).Leads (c :: rest) := by
  refine .of_mayFollow ?_ rfl (isPrefix_run _ _) ?_ ?_
  · obtain hword | ⟨hkind, htext⟩ := ofWord_cases (String.ofList (c :: (run continuesWord rest).1))
    · rw [hword]
      exact .identifier h fun d hd => of_mem_run hd
    · have hruled := Ruled.fixed hkind
      rw [htext, String.toList_ofList] at hruled
      exact hruled
  · intro other hfront hfollow
    rw [MayFollow, front_of_startsWord h] at hfollow
    exact length_le_run hfront hfollow
  · -- If the text is that of a keyword, the kind is that keyword.
    intro kind hkind htext
    obtain ⟨hword, -⟩ | ⟨d, htext', hsymbol⟩ | ⟨d, htext', hsymbol⟩ := text_cases hkind
    · rw [← htext, String.ofList_toList, hword]
    · obtain ⟨rfl, -⟩ := List.cons.inj (htext.symm.trans htext')
      exact nomatch (front_of_startsWord h).symm.trans (front_of_ofSymbol? hsymbol)
    · obtain ⟨rfl, -⟩ := List.cons.inj (htext.symm.trans htext')
      exact nomatch (front_of_startsWord h).symm.trans (front_of_ofSymbolEq? hsymbol)

/-- A number goes on at least as long as there are digits. -/
theorem length_run_le_cutNumber (text : List Char) :
    (run Char.isDigit text).1.length ≤ (cutNumber text).1.length := by
  unfold cutNumber
  split
  · next whole d behind hrun =>
    rw [hrun]
    split
    · rw [List.length_append]
      exact Nat.le_add_right _ _
    · exact Nat.le_refl _
  · next whole behind _ hrun => exact Nat.le_of_eq (by rw [hrun])

/-- A number goes on behind a point as long as there are digits. -/
theorem cutNumber_of_decimal {digits fraction : List Char} (behind : List Char)
    (hdigits : ∀ d ∈ digits, d.isDigit = true) (hfraction : IsDigits fraction) :
    (cutNumber (digits ++ '.' :: (fraction ++ behind))).1 =
      digits ++ '.' :: (run Char.isDigit (fraction ++ behind)).1 := by
  obtain ⟨d, others, rfl⟩ := List.exists_cons_of_ne_nil hfraction.1
  have hfirst : d.isDigit = true := hfraction.2 d List.mem_cons_self
  have hrun : run Char.isDigit (digits ++ '.' :: (d :: others ++ behind)) =
      (digits, '.' :: d :: (others ++ behind)) := by
    rw [run, List.takeWhile_append_of_pos hdigits, List.dropWhile_append_of_pos hdigits]
    simp
  rw [cutNumber, hrun]
  simp only [List.cons_append, if_pos hfirst]

/-- What is cut off as a number follows the rule for numbers. -/
theorem ruled_number (h : c.isDigit = true) : (token .number (c :: (cutNumber rest).1)).Ruled := by
  have hrun : ∀ d ∈ (run Char.isDigit rest).1, d.isDigit = true := fun d hd => of_mem_run hd
  unfold cutNumber
  -- The point is part of the number just if a digit stands behind it.
  split
  · next whole d behind heq =>
    rw [heq] at hrun
    have hdigits : IsDigits (c :: whole) := ⟨List.cons_ne_nil _ _, List.forall_mem_cons.2 ⟨h, hrun⟩⟩
    split
    · next hd =>
      have hfirst : (run Char.isDigit (d :: behind)).1 = d :: (run Char.isDigit behind).1 := by
        simp [run, hd]
      have hfraction : IsDigits (run Char.isDigit (d :: behind)).1 :=
        ⟨hfirst ▸ List.cons_ne_nil _ _, fun e he => of_mem_run he⟩
      exact .decimal hdigits hfraction
    · exact .whole hdigits
  · next whole behind _ heq =>
    rw [heq] at hrun
    exact .whole ⟨List.cons_ne_nil _ _, List.forall_mem_cons.2 ⟨h, hrun⟩⟩

/-- A number is a piece of its own. -/
theorem leads_number (h : c.isDigit = true) :
    (token .number (c :: (cutNumber rest).1)).Leads (c :: rest) := by
  have hfront : (cutNumber rest).1 <+: rest := ⟨(cutNumber rest).2, cutNumber_append rest⟩
  refine .of_mayFollow (ruled_number h) rfl hfront ?_ ?_
  · intro other hother hfollow
    rw [MayFollow, front_of_isDigit h] at hfollow
    obtain hdigits | ⟨digits, fraction, rfl, hdigits, hfraction⟩ := hfollow
    · exact Nat.le_trans (length_le_run hother hdigits) (length_run_le_cutNumber rest)
    · obtain ⟨behind, rfl⟩ := hother
      have hrun := length_le_run (List.prefix_append fraction behind) hfraction.2
      -- Any other decimal has the same digits in front of its point, and no more behind it than the
      -- run has.
      rw [List.append_assoc, List.cons_append, cutNumber_of_decimal behind hdigits hfraction]
      simp only [List.length_append, List.length_cons]
      omega
  · intro kind hkind htext
    have hfirst := front_of_fixed hkind htext
    rw [front_of_isDigit h] at hfirst
    exact absurd hfirst (by decide)

/-- A string is a piece of its own, closed or not. -/
theorem leads_cutString (rest : List Char) : (cutString rest).1.Leads ('"' :: rest) := by
  have hnone : '"' ∉ (run (· != '"') rest).1 := fun hmem => by simpa using of_mem_run hmem
  have hlength {front : List Char} (hfront : front <+: rest) (hquote : '"' ∉ front) :
      front.length ≤ (run (· != '"') rest).1.length :=
    length_le_run hfront fun d hd => bne_iff_ne.2 fun heq => hquote (heq ▸ hd)
  have hfixed (body : List Char) (piece : Piece) (kind : Kind) (hkind : kind.hasOneText = true)
      (htext : kind.text.toList = '"' :: body) : piece = .token kind ('"' :: body) :=
    absurd (front_of_fixed hkind htext) (by decide)
  have happend := run_append (· != '"') rest
  unfold cutString
  split
  · next body heq =>
    -- There is no quote to the end of the text.
    rw [heq] at hnone happend
    obtain rfl : body = rest := by simpa using happend
    exact .of_mayFollow (.unterminated hnone) rfl (List.prefix_refl body)
      (fun other hfront _ => hfront.length_le) (hfixed body _)
  · next body close behind heq =>
    rw [heq] at hnone happend hlength
    have hclose : close = '"' := by
      have hdrop : rest.dropWhile (· != '"') = close :: behind := congrArg Prod.snd heq
      have hhead := List.head_dropWhile_not (l := rest) (· != '"') (by simp [hdrop])
      simpa [hdrop] using hhead
    subst hclose
    refine .of_mayFollow (.string hnone) rfl ⟨behind, by simpa using happend⟩ ?_ (hfixed _ _)
    intro other hfront hfollow
    show other.length ≤ (body ++ ['"']).length
    rw [List.length_append]
    obtain hquote | ⟨body', rfl, hquote⟩ := hfollow
    · exact Nat.le_add_right_of_le (hlength hfront hquote)
    · have hfront' : body' <+: rest := (List.prefix_append body' ['"']).trans hfront
      rw [List.length_append]
      exact Nat.add_le_add_right (hlength hfront' hquote) 1

/-- A symbol with an equals sign behind it is the text of its kind. -/
theorem text_of_ofSymbolEq? {kind : Kind} (h : ofSymbolEq? c = some kind) :
    kind.hasOneText = true ∧ kind.text.toList = [c, '='] := by
  unfold ofSymbolEq? at h
  split at h <;> first | (cases h; exact ⟨rfl, rfl⟩) | exact nomatch h

/-- A symbol is the text of its kind. -/
theorem text_of_ofSymbol? {kind : Kind} (h : ofSymbol? c = some kind) :
    kind.hasOneText = true ∧ kind.text.toList = [c] := by
  unfold ofSymbol? at h
  split at h <;> first | (cases h; exact ⟨rfl, rfl⟩) | exact nomatch h

/-- A symbol with an equals sign behind it is a piece of its own. -/
theorem leads_symbolEq {kind : Kind} (h : ofSymbolEq? c = some kind) :
    (token kind [c, '=']).Leads (c :: '=' :: rest) := by
  obtain ⟨hkind, htext⟩ := text_of_ofSymbolEq? h
  refine .of_mayFollow (htext ▸ .fixed hkind) rfl ⟨rest, rfl⟩ ?_ ?_
  · intro other hfront hfollow
    rw [MayFollow, front_of_ofSymbolEq? h] at hfollow
    obtain ⟨_, rfl, -⟩ | ⟨_, -, rfl⟩ | ⟨_, -, rfl⟩ := hfollow
    · exact nomatch h
    · exact Nat.zero_le _
    · exact Nat.le_refl _
  · -- No other kind has this text.
    intro kind' hkind' htext'
    obtain ⟨-, d, _, htext'', hfirst, -⟩ | ⟨d, htext'', -⟩ | ⟨d, htext'', hsymbol⟩ :=
      text_cases hkind'
    · obtain ⟨rfl, -⟩ := List.cons.inj (htext'.symm.trans htext'')
      exact nomatch (front_of_startsWord hfirst).symm.trans (front_of_ofSymbolEq? h)
    · exact nomatch htext'.symm.trans htext''
    · obtain ⟨rfl, -⟩ := List.cons.inj (htext'.symm.trans htext'')
      rw [Option.some.inj (h.symm.trans hsymbol)]

/-- A symbol leads if nothing makes it longer. -/
theorem leads_symbol {kind : Kind} (h : ofSymbol? c = some kind)
    (hcomment : ¬ (c = '/' ∧ rest.head? = some '/'))
    (hequals : ∀ kind', ofSymbolEq? c = some kind' → rest.head? ≠ some '=') :
    (token kind [c]).Leads (c :: rest) := by
  obtain ⟨hkind, htext⟩ := text_of_ofSymbol? h
  refine .of_mayFollow (htext ▸ .fixed hkind) rfl List.nil_prefix ?_ ?_
  · -- A longer piece would be a comment or a symbol with an equals sign, and both are excluded.
    intro other hfront hfollow
    rw [MayFollow, front_of_ofSymbol? h] at hfollow
    obtain ⟨body, rfl, rfl, -⟩ | ⟨_, -, rfl⟩ | ⟨kind', hsymbol, rfl⟩ := hfollow
    · obtain ⟨behind, rfl⟩ := hfront
      exact absurd ⟨rfl, rfl⟩ hcomment
    · exact Nat.le_refl 0
    · obtain ⟨behind, rfl⟩ := hfront
      exact absurd rfl (hequals kind' hsymbol)
  · intro kind' hkind' htext'
    obtain ⟨-, d, _, htext'', hfirst, -⟩ | ⟨d, htext'', hsymbol⟩ | ⟨d, htext'', -⟩ :=
      text_cases hkind'
    · obtain ⟨rfl, -⟩ := List.cons.inj (htext'.symm.trans htext'')
      exact nomatch (front_of_startsWord hfirst).symm.trans (front_of_ofSymbol? h)
    · obtain ⟨rfl, -⟩ := List.cons.inj (htext'.symm.trans htext'')
      rw [Option.some.inj (h.symm.trans hsymbol)]
    · exact nomatch htext'.symm.trans htext''

/-- A character that is no symbol and starts nothing else is left alone. -/
theorem leads_stray (hfront : front c = .symbol) (hnone : ofSymbol? c = none) :
    (stray c).Leads (c :: rest) := by
  refine .stray fun other hother hprefix => ?_
  obtain ⟨d, others, htext, hfollow⟩ := hother.exists_cons
  rw [htext, List.cons_prefix_cons] at hprefix
  obtain ⟨rfl, -⟩ := hprefix
  rw [MayFollow, hfront] at hfollow
  -- No rule starts with a character that is no symbol, not even together with an equals sign.
  obtain ⟨_, rfl, -⟩ | ⟨_, hsymbol, -⟩ | ⟨_, hsymbol, -⟩ := hfollow
  · exact nomatch hnone
  · rw [hnone] at hsymbol
    exact nomatch hsymbol
  · obtain ⟨_, hsymbol'⟩ := exists_ofSymbol?_of_ofSymbolEq? hsymbol
    rw [hnone] at hsymbol'
    exact nomatch hsymbol'

/-- A symbol that starts no comment is a piece of its own, stray or not. -/
theorem leads_cutSymbol (hfront : front c = .symbol)
    (hcomment : ¬ (c = '/' ∧ rest.head? = some '/')) : (cutSymbol c rest).1.Leads (c :: rest) := by
  unfold cutSymbol
  split
  · next kind behind hsymbol => exact leads_symbolEq hsymbol
  · next others hequals =>
    split
    · next kind hsymbol =>
      refine leads_symbol hsymbol hcomment fun kind' hsymbolEq hhead => ?_
      obtain ⟨behind, hothers⟩ := List.head?_eq_some_iff.1 hhead
      exact hequals kind' behind hsymbolEq hothers
    · next hnone => exact leads_stray hfront hnone

/-- The piece that is cut off the front of a text is the one that leads. -/
theorem leads_cut (c : Char) (rest : List Char) : (cut c rest).1.Leads (c :: rest) := by
  -- The questions are those of `cut`, in its order, so that the last one knows all the others to be
  -- denied.
  unfold cut
  split
  · next h => exact leads_blanks h
  split
  · next h =>
    obtain rfl := beq_iff_eq.1 h
    exact leads_newline
  split
  · next h =>
    simp only [Bool.and_eq_true, beq_iff_eq] at h
    obtain ⟨rfl, hhead⟩ := h
    exact leads_comment hhead
  split
  · next h => exact leads_number h
  split
  · next h => exact leads_word h
  split
  · next h =>
    obtain rfl := beq_iff_eq.1 h
    exact leads_cutString rest
  · next hblank hnewline hcomment hdigit hword hquote =>
    have hfront : front c = .symbol := by
      rw [beq_iff_eq] at hnewline hquote
      rw [front, if_neg hblank, if_neg hnewline, if_neg hdigit, if_neg hword, if_neg hquote]
    refine leads_cutSymbol hfront ?_
    simpa using hcomment

end

/-- The pieces of a text are the longest ones that the rules allow, from the first to the last. -/
theorem tiles_all (text : List Char) : Tiles (all text) text := by
  fun_induction all text with
  | case1 => exact .nil
  | case2 c rest ih =>
    have hfirst := leads_cut c rest
    rw [← text_cut c rest] at hfirst
    have htiles := Tiles.cons hfirst ih
    rwa [text_cut] at htiles

end Piece

end Treewalk
