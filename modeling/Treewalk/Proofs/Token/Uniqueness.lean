import Treewalk.Proofs.Token.Tiling

/-!
# A text has one tiling

Rules and lengths leave no choice. A piece that some rule allows is determined by its text, unless
this is the text of a kind, which then wins (`Piece.Leads.unique`). So the pieces of a text are the
only ones that tile it (`Piece.Tiles.eq_all`), and to find them it is enough to know some that do.
-/

namespace Treewalk.Piece

/-- The piece that has the text `c :: rest`, if this is not the text of a kind. -/
def ofFront (c : Char) (rest : List Char) : Piece :=
  match front c with
  | .blank => blanks (c :: rest)
  | .newline => newline
  | .digit => token .number (c :: rest)
  | .word => token .identifier (c :: rest)
  | .quote => if '"' ∈ rest then token .string (c :: rest) else unterminated (c :: rest)
  | .symbol => comment (c :: rest)

/-- A piece that some rule allows has the text of a kind, or is determined by its text. -/
theorem Ruled.eq_ofFront {piece : Piece} {c : Char} {rest : List Char} (h : piece.Ruled)
    (htext : piece.text = c :: rest) :
    (∃ kind : Kind, kind.hasOneText = true ∧ kind.text.toList = c :: rest) ∨
      piece = ofFront c rest := by
  rw [ofFront]
  -- Apart from fixed texts, each rule is the only one for what it starts with.
  cases h with
  | blanks _ hblank =>
    obtain rfl := htext
    rw [front_of_isBlank (hblank c List.mem_cons_self)]
    exact .inr rfl
  | newline =>
    obtain ⟨rfl, -⟩ := List.cons.inj htext
    exact .inr rfl
  | comment =>
    obtain ⟨rfl, rfl⟩ := List.cons.inj htext
    exact .inr rfl
  | @fixed kind hkind => exact .inl ⟨kind, hkind, htext⟩
  | whole hdigits =>
    obtain rfl := htext
    rw [front_of_isDigit (hdigits.2 c List.mem_cons_self)]
    exact .inr rfl
  | @decimal digits fraction hdigits =>
    obtain ⟨d, others, rfl⟩ := List.exists_cons_of_ne_nil hdigits.1
    obtain ⟨rfl, rfl⟩ := List.cons.inj htext
    rw [front_of_isDigit (hdigits.2 d List.mem_cons_self)]
    exact .inr rfl
  | string =>
    obtain ⟨rfl, rfl⟩ := List.cons.inj htext
    exact .inr (if_pos (List.mem_append_right _ (List.mem_singleton_self _))).symm
  | identifier hfirst =>
    obtain ⟨rfl, rfl⟩ := List.cons.inj htext
    rw [front_of_startsWord hfirst]
    exact .inr rfl
  | unterminated hbody =>
    obtain ⟨rfl, rfl⟩ := List.cons.inj htext
    exact .inr (if_neg hbody).symm

/-- Only one piece leads a text. -/
theorem Leads.unique {piece other : Piece} {text : List Char} (h : piece.Leads text)
    (hother : other.Leads text) : piece = other := by
  cases h with
  | longest hruled hfront hlongest hfixed =>
    cases hother with
    | longest hruled' hfront' hlongest' hfixed' =>
      have hlength : piece.text.length = other.text.length :=
        Nat.le_antisymm (hlongest' _ hruled hfront) (hlongest _ hruled' hfront')
      have htext : piece.text = other.text :=
        (List.prefix_of_prefix_length_le hfront hfront' (Nat.le_of_eq hlength)).eq_of_length hlength
      obtain ⟨c, rest, hpiece, -⟩ := hruled.exists_cons
      rw [htext] at hpiece hfixed
      -- The text of a kind makes both pieces this kind. No other text is that of two pieces.
      by_cases hkind : ∃ kind : Kind, kind.hasOneText = true ∧ kind.text.toList = c :: rest
      · obtain ⟨kind, hkind, hkindtext⟩ := hkind
        rw [← hpiece] at hkindtext
        exact (hfixed kind hkind hkindtext).trans (hfixed' kind hkind hkindtext).symm
      · rw [(hruled.eq_ofFront (htext.trans hpiece)).resolve_left hkind,
          (hruled'.eq_ofFront hpiece).resolve_left hkind]
    | stray hnone => exact absurd hfront (hnone piece hruled)
  | stray hnone =>
    cases hother with
    | longest hruled hfront _ _ => exact absurd hfront (hnone other hruled)
    | stray _ => rfl

/-- The pieces of a text are the only ones that tile it. -/
theorem Tiles.eq_all {pieces : List Piece} {text : List Char} (h : Tiles pieces text) :
    pieces = all text := by
  induction h with
  | nil => rw [all]
  | @cons piece pieces rest hfirst hothers ih =>
    have hne : piece.text ++ rest ≠ [] :=
      List.append_ne_nil_of_left_ne_nil ((Tiles.cons hfirst hothers).text_ne_nil piece
        List.mem_cons_self) _
    obtain ⟨c, others, htext⟩ := List.exists_cons_of_ne_nil hne
    rw [htext] at hfirst ⊢
    -- What is cut off next leads the text, and so does the first piece, so they are the same.
    have hcut : (cut c others).1 = piece := (leads_cut c others).unique hfirst
    have hrest : (cut c others).2 = rest := by
      have hwhole := (text_cut c others).trans htext.symm
      rw [hcut] at hwhole
      exact List.append_cancel_left hwhole
    rw [all, hcut, hrest, ih]

/-- What rules and lengths choose at the front of a longer text is all there is to its own text. -/
theorem Leads.all_text {kind : Kind} {text rest : List Char}
    (h : (token kind text).Leads (text ++ rest)) : all text = [token kind text] := by
  cases h with
  | longest hruled _ hlongest hfixed =>
    -- Whatever is in front of the text alone is in front of the longer one as well.
    have hfirst : (token kind text).Leads (text ++ []) :=
      .longest hruled (List.prefix_append text [])
        (fun other hother hfront => hlongest other hother (hfront.trans ⟨rest, by simp⟩)) hfixed
    have htiles : Tiles [token kind text] (text ++ []) := .cons hfirst .nil
    rw [List.append_nil] at htiles
    exact htiles.eq_all.symm

end Treewalk.Piece
