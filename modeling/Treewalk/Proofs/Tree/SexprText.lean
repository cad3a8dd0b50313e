import Treewalk.Tree.Sexpr

/-!
# The text of S-expressions

The text of an S-expression says where it ends: a leaf is either in quotes or free of the characters
that mark the ends of leaves and lists (`Sexpr.Stands`). So from a text that begins with an
S-expression both this S-expression and what is behind it can be told (`Sexpr.append_inj`), and from
the texts of several ones with a separator between them all of them (`Sexpr.joined_inj`), although
quoted leaves may hold line breaks, spaces and parentheses.
-/

namespace Treewalk.Sexpr

section

variable {a b r s : List Char}

/-- Up to the first character of a class, a text falls apart in one way only. -/
theorem eq_of_append_eq {p : Char → Bool} (ha : ∀ c ∈ a, p c = false) (hb : ∀ c ∈ b, p c = false)
    (hr : ∀ c ∈ r.head?, p c = true) (hs : ∀ c ∈ s.head?, p c = true) (h : a ++ r = b ++ s) :
    a = b ∧ r = s := by
  induction a generalizing b with
  | nil =>
    cases b with
    | nil => exact ⟨rfl, h⟩
    | cons d b =>
      -- Where one of them is at its end, the other one would have to be at a character of the
      -- class.
      obtain rfl : r = d :: (b ++ s) := h
      exact absurd (hr d rfl) (by simp [hb d List.mem_cons_self])
  | cons c a ih =>
    obtain ⟨hc, ha⟩ := List.forall_mem_cons.1 ha
    cases b with
    | nil =>
      obtain rfl : c :: (a ++ r) = s := h
      exact absurd (hs c rfl) (by simp [hc])
    | cons d b =>
      obtain ⟨rfl, hothers⟩ := List.cons.inj h
      obtain ⟨rfl, rfl⟩ := ih ha (List.forall_mem_cons.1 hb).2 hothers
      exact ⟨rfl, rfl⟩

/-! ## Leaves -/

/-- Is this one of the characters that leaves and lists are told apart by? -/
def isMark (c : Char) : Bool := c == ' ' || c == '(' || c == ')' || c == '"' || c == '\n'

/-- A text that is seen as a whole wherever it stands. -/
inductive Stands : List Char → Prop where
  | bare {text : List Char} (hne : text ≠ []) (htext : ∀ c ∈ text, isMark c = false) : Stands text
  | quoted {body : List Char} (hbody : '"' ∉ body) : Stands ('"' :: (body ++ ['"']))

/-- Is this a text of other characters? -/
def isBare (text : List Char) : Bool := !text.isEmpty && text.all (!isMark ·)

/-- A text of other characters is seen as a whole. -/
theorem Stands.of_isBare {text : List Char} (h : isBare text = true) : Stands text := by
  obtain ⟨hne, hall⟩ := Bool.and_eq_true_iff.1 h
  exact .bare (by simpa using hne) (by simpa using hall)

/-- No mark belongs to a class of characters if none of the five does. -/
theorem isMark_eq_false {p : Char → Bool} {c : Char} (hc : p c = true)
    (hp : (p ' ' || p '(' || p ')' || p '"' || p '\n') = false) : isMark c = false := by
  simp only [Bool.or_eq_false_iff] at hp
  obtain ⟨⟨⟨⟨hspace, hopening⟩, hclosing⟩, hquote⟩, hnewline⟩ := hp
  simp only [isMark, Bool.or_eq_false_iff, beq_eq_false_iff_ne]
  refine ⟨⟨⟨⟨?_, ?_⟩, ?_⟩, ?_⟩, ?_⟩ <;>
  · rintro rfl
    simp_all

/-- May this be what is behind an S-expression? -/
def Ended (rest : List Char) : Prop := ∀ c ∈ rest.head?, c = ' ' ∨ c = ')' ∨ c = '\n'

/-- May this be what is behind the last of several S-expressions? -/
def Closed (rest : List Char) : Prop := ∀ c ∈ rest.head?, c = ')'

/-- What may follow the last of several may follow any. -/
theorem Closed.ended (h : Closed r) : Ended r := fun c hc => .inr (.inl (h c hc))

/-- What may follow an S-expression starts with a mark. -/
theorem Ended.isMark_of_mem_head? (h : Ended r) : ∀ c ∈ r.head?, isMark c = true := by
  intro c hc
  obtain rfl | rfl | rfl := h c hc <;> rfl

/-- What stands as a whole begins neither like a list nor like what is behind an S-expression. -/
theorem Stands.exists_cons (h : Stands a) : ∃ c rest, a = c :: rest ∧ c ≠ '(' ∧ c ≠ ')' := by
  cases h with
  | bare hne htext =>
    obtain ⟨c, rest, rfl⟩ := List.exists_cons_of_ne_nil hne
    have hc := htext c List.mem_cons_self
    refine ⟨c, rest, rfl, ?_, ?_⟩ <;>
    · rintro rfl
      exact nomatch hc
  | quoted hbody => exact ⟨_, _, rfl, by decide, by decide⟩

/-- Where a leaf is over can be told from the text. -/
theorem Stands.append_inj (ha : Stands a) (hb : Stands b) (hr : Ended r) (hs : Ended s)
    (h : a ++ r = b ++ s) : a = b ∧ r = s := by
  have hquote (body : List Char) (hbody : '"' ∉ body) : ∀ c ∈ body, (c == '"') = false :=
    fun c hc => beq_false_of_ne fun heq => hbody (heq ▸ hc)
  -- The first character tells whether a leaf is in quotes.
  have hdiffer {text body front : List Char} (hne : text ≠ [])
      (htext : ∀ c ∈ text, isMark c = false) (heq : text ++ front = '"' :: body) : False := by
    obtain ⟨c, rest, rfl⟩ := List.exists_cons_of_ne_nil hne
    obtain ⟨rfl, -⟩ := List.cons.inj heq
    exact nomatch htext '"' List.mem_cons_self
  cases ha with
  | bare hne htext =>
    cases hb with
    | bare hne' htext' =>
      exact eq_of_append_eq htext htext' hr.isMark_of_mem_head? hs.isMark_of_mem_head? h
    | quoted hbody => exact (hdiffer hne htext h).elim
  | @quoted body hbody =>
    cases hb with
    | bare hne htext => exact (hdiffer hne htext h.symm).elim
    | @quoted body' hbody' =>
      have hinner : body ++ '"' :: r = body' ++ '"' :: s := by simpa using h
      obtain ⟨rfl, hrest⟩ :=
        eq_of_append_eq (p := (· == '"')) (hquote body hbody) (hquote body' hbody')
        (by simp) (by simp) hinner
      exact ⟨rfl, (List.cons.inj hrest).2⟩

end

/-! ## Lists -/

/-- An S-expression all of whose leaves are seen as a whole. -/
inductive Legible : Sexpr → Prop where
  | leaf {text : String} (h : Stands text.toList) : Legible (.leaf text)
  | list {items : List Sexpr} (h : ∀ s ∈ items, Legible s) : Legible (.list items)

/-- A list with a word or symbol at its front is legible if the other items are. -/
theorem Legible.cons_leaf {head : String} {items : List Sexpr} (hhead : isBare head.toList = true)
    (hitems : ∀ s ∈ items, s.Legible) : (Sexpr.list (.leaf head :: items)).Legible :=
  .list (List.forall_mem_cons.2 ⟨.leaf (.of_isBare hhead), hitems⟩)

/-- The texts of S-expressions, each with a separator in front. -/
def behind (separator : Char) : List Sexpr → List Char
  | [] => []
  | s :: rest => separator :: (s.text.toList ++ behind separator rest)

/-- The texts of S-expressions with a separator between them. -/
def joined (separator : Char) : List Sexpr → List Char
  | [] => []
  | s :: rest => s.text.toList ++ behind separator rest

/-- Joining texts is joining their characters. -/
theorem toList_intercalate_text (separator : Char) (items : List Sexpr) :
    ((String.singleton separator).intercalate (items.map text)).toList =
      joined separator items := by
  cases items with
  | nil => rfl
  | cons s rest =>
    rw [joined]
    induction rest generalizing s with
    | nil => simp [behind]
    | cons t rest ih =>
      rw [List.map_cons, List.map_cons, String.intercalate_cons_cons, String.toList_append,
        String.toList_append, ← List.map_cons, ih]
      simp [behind]

/-- A list is shown in parentheses, with a space between its items. -/
theorem toList_text_list (items : List Sexpr) :
    (list items).text.toList = '(' :: (joined ' ' items ++ [')']) := by
  have hspace : String.singleton ' ' = " " := rfl
  rw [text, texts_eq_map, String.toList_append, String.toList_append, ← hspace,
    toList_intercalate_text]
  rfl

/-- An S-expression does not begin like what is behind one. -/
theorem Legible.exists_cons {a : Sexpr} (h : a.Legible) :
    ∃ c rest, a.text.toList = c :: rest ∧ c ≠ ')' := by
  cases h with
  | leaf h =>
    obtain ⟨c, rest, htext, -, hc⟩ := h.exists_cons
    exact ⟨c, rest, htext, hc⟩
  | list h => exact ⟨_, _, toList_text_list _, by decide⟩

section

variable {separator : Char} {r s : List Char}

/-- Behind an S-expression there may be others, or what follows the last of them. -/
theorem ended_behind_append (hseparator : separator = ' ' ∨ separator = '\n') (items : List Sexpr)
    (hr : Closed r) : Ended (behind separator items ++ r) := by
  cases items with
  | nil => exact hr.ended
  | cons a rest =>
    rintro c ⟨⟩
    exact hseparator.imp_right .inr

/-- A separator in front of the first S-expression makes no difference to whether texts are the
    same. -/
theorem behind_eq_of_joined_eq {items items' : List Sexpr} (hitems : ∀ a ∈ items, a.Legible)
    (hitems' : ∀ a ∈ items', a.Legible) (hr : Closed r) (hs : Closed s)
    (h : joined separator items ++ r = joined separator items' ++ s) :
    behind separator items ++ r = behind separator items' ++ s := by
  -- No S-expression starts like what may follow the last one, so either there are items on both
  -- sides or on none.
  cases items with
  | nil =>
    cases items' with
    | nil => exact h
    | cons b rest' =>
      obtain ⟨c, front, htext, hc⟩ := (hitems' b List.mem_cons_self).exists_cons
      obtain rfl : r = joined separator (b :: rest') ++ s := h
      exact absurd (hr c (by simp [joined, htext])) hc
  | cons a rest =>
    cases items' with
    | nil =>
      obtain ⟨c, front, htext, hc⟩ := (hitems a List.mem_cons_self).exists_cons
      obtain rfl : joined separator (a :: rest) ++ r = s := h
      exact absurd (hs c (by simp [joined, htext])) hc
    | cons b rest' => exact congrArg (separator :: ·) h

mutual

/-- An S-expression can be told from any text that begins with it. -/
theorem append_inj {a b : Sexpr} (ha : a.Legible) (hb : b.Legible) {r s : List Char} (hr : Ended r)
    (hs : Ended s) (h : a.text.toList ++ r = b.text.toList ++ s) : a = b ∧ r = s := by
  cases a with
  | leaf t =>
    obtain ⟨ha⟩ := ha
    cases b with
    | leaf u =>
      obtain ⟨hb⟩ := hb
      obtain ⟨htext, rfl⟩ := ha.append_inj hb hr hs h
      rw [String.toList_inj.1 htext]
      exact ⟨rfl, rfl⟩
    | list items =>
      -- A leaf and a list differ in their first character.
      obtain ⟨c, rest, htext, hc, -⟩ := ha.exists_cons
      rw [text, htext, toList_text_list] at h
      exact absurd (List.cons.inj h).1 hc
  | list items =>
    cases b with
    | leaf u =>
      obtain ⟨hb⟩ := hb
      obtain ⟨c, rest, htext, hc, -⟩ := hb.exists_cons
      rw [text.eq_1, htext, toList_text_list] at h
      exact absurd (List.cons.inj h).1.symm hc
    | list items' =>
      cases ha with | list ha =>
      cases hb with | list hb =>
      rw [toList_text_list, toList_text_list] at h
      have hinner : joined ' ' items ++ ')' :: r = joined ' ' items' ++ ')' :: s := by simpa using h
      have hclosed (rest : List Char) : Closed (')' :: rest) :=
        fun c hc => (Option.some.inj hc).symm
      obtain ⟨rfl, hrest⟩ := behind_inj (.inl rfl) ha hb (hclosed r) (hclosed s)
        (behind_eq_of_joined_eq ha hb (hclosed r) (hclosed s) hinner)
      exact ⟨rfl, (List.cons.inj hrest).2⟩
termination_by structural a

/-- The items behind the first one can be told from the text. -/
theorem behind_inj {separator : Char} (hseparator : separator = ' ' ∨ separator = '\n')
    {items items' : List Sexpr} (hitems : ∀ a ∈ items, a.Legible)
    (hitems' : ∀ a ∈ items', a.Legible) {r s : List Char} (hr : Closed r) (hs : Closed s)
    (h : behind separator items ++ r = behind separator items' ++ s) : items = items' ∧ r = s := by
  have hopen : separator ≠ ')' := by
    obtain rfl | rfl := hseparator <;> decide
  cases items with
  | nil =>
    cases items' with
    | nil => exact ⟨rfl, h⟩
    | cons b rest' =>
      obtain rfl : r = behind separator (b :: rest') ++ s := h
      exact absurd (hr separator rfl) hopen
  | cons a rest =>
    cases items' with
    | nil =>
      obtain rfl : behind separator (a :: rest) ++ r = s := h
      exact absurd (hs separator rfl) hopen
    | cons b rest' =>
      obtain ⟨ha, hrest⟩ := List.forall_mem_cons.1 hitems
      obtain ⟨hb, hrest'⟩ := List.forall_mem_cons.1 hitems'
      -- Without the separator, both texts begin with an item, and an item says where it ends.
      have hfirst : a.text.toList ++ (behind separator rest ++ r) =
          b.text.toList ++ (behind separator rest' ++ s) := by
        simpa [behind] using h
      obtain ⟨rfl, hothers⟩ := append_inj ha hb (ended_behind_append hseparator rest hr)
        (ended_behind_append hseparator rest' hs) hfirst
      obtain ⟨rfl, rfl⟩ := behind_inj hseparator hrest hrest' hr hs hothers
      exact ⟨rfl, rfl⟩
termination_by structural items

end

/-- Several S-expressions can be told from any text that begins with them. -/
theorem joined_inj (hseparator : separator = ' ' ∨ separator = '\n') {items items' : List Sexpr}
    (hitems : ∀ a ∈ items, a.Legible) (hitems' : ∀ a ∈ items', a.Legible) (hr : Closed r)
    (hs : Closed s)
    (h : joined separator items ++ r = joined separator items' ++ s) : items = items' ∧ r = s :=
  behind_inj hseparator hitems hitems' hr hs (behind_eq_of_joined_eq hitems hitems' hr hs h)

end

end Treewalk.Sexpr
