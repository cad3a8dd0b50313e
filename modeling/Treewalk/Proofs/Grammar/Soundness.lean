import Treewalk.Proofs.Grammar.Outcome
import Treewalk.Proofs.Grammar.Symbols

/-!
# The parser makes nothing up

Every token that the parser takes goes into the tree or is dropped, and none is dropped without a
diagnostic. The statements here say so production by production. `Accounts slots tokens rest notes`
says that the tokens in front of `rest` hold, in their order, tokens for all the slots, and that
these are all of them just if nothing was noted; `Step.Reads` says that a production accounts in
this way for what it reads. Both are closed under all ways in which productions are put together.

Two places drop tokens, and both make a note: an assignment to what cannot be assigned to, which
loses its right side, and a declaration that the grammar is stuck in.

The main statement is `yield_ofTokens`.
-/

namespace Treewalk

/-! ## Accounting for tokens -/

/-- In front of `rest`, the tokens hold tokens for the slots, and no others if nothing is noted. -/
def Accounts (slots : List TokenSlot) (tokens rest : List Token) (notes : List Diagnostic) : Prop :=
  ∃ taken kept, tokens = taken ++ rest ∧ kept.Sublist taken ∧ Spells slots kept ∧
    (notes = [] ↔ kept = taken)

namespace Accounts

variable {slots slots' : List TokenSlot} {tokens rest rest' : List Token}
  {notes notes' : List Diagnostic}

/-- Where nothing is read, there is nothing to account for. -/
theorem refl (tokens : List Token) : Accounts [] tokens tokens [] :=
  ⟨[], [], rfl, .slnil, .nil, by simp⟩

/-- A token that fits is read in front of the others. -/
theorem cons {slot : TokenSlot} {t : Token} (hfirst : slot.Admits t)
    (h : Accounts slots tokens rest notes) : Accounts (slot :: slots) (t :: tokens) rest notes := by
  obtain ⟨taken, kept, rfl, hsub, hspells, hnotes⟩ := h
  refine ⟨t :: taken, t :: kept, rfl, hsub.cons_cons t, hspells.cons hfirst, ?_⟩
  rw [hnotes, List.cons_inj_right]

/-- What is read goes on where it stopped before. -/
theorem append (h : Accounts slots tokens rest notes) (h' : Accounts slots' rest rest' notes') :
    Accounts (slots ++ slots') tokens rest' (notes ++ notes') := by
  obtain ⟨taken, kept, rfl, hsub, hspells, hnotes⟩ := h
  obtain ⟨taken', kept', rfl, hsub', hspells', hnotes'⟩ := h'
  refine ⟨taken ++ taken', kept ++ kept', (List.append_assoc _ _ _).symm, hsub.append hsub',
    hspells.append hspells', ?_⟩
  rw [List.append_eq_nil_iff, hnotes, hnotes']
  constructor
  · rintro ⟨rfl, rfl⟩
    rfl
  · intro heq
    -- Neither part can make up for tokens that the other one has lost.
    have hlength := congrArg List.length heq
    rw [List.length_append, List.length_append] at hlength
    have hle := hsub.length_le
    have hle' := hsub'.length_le
    exact ⟨hsub.eq_of_length (by omega), hsub'.eq_of_length (by omega)⟩

/-- Tokens are dropped with a note. -/
theorem dropped {taken : List Token} (hne : taken ≠ []) (hnotes : notes ≠ []) :
    Accounts [] (taken ++ rest) rest notes :=
  ⟨taken, [], rfl, List.nil_sublist taken, .nil, by simp [hnotes, hne.symm]⟩

/-- What has been read is dropped with a note. -/
theorem drop {slot : TokenSlot} (h : Accounts (slot :: slots) tokens rest notes) (d : Diagnostic) :
    Accounts [] tokens rest (notes ++ [d]) := by
  obtain ⟨taken, kept, rfl, hsub, hspells, -⟩ := h
  obtain ⟨t, kept', rfl, -, -⟩ := hspells.exists_cons
  have hne : taken ≠ [] := by
    intro hnil
    rw [hnil] at hsub
    cases hsub
  exact dropped hne (by simp)

/-- What is left is the end of what there was. -/
theorem suffix (h : Accounts slots tokens rest notes) : rest <:+ tokens := by
  obtain ⟨taken, -, rfl, -⟩ := h
  exact List.suffix_append taken rest

end Accounts

namespace Step

variable {α β : Type} {n k j : Nat}

/-- A step accounts for all tokens that it reads, by slots that its value `stands` for. -/
def Reads (s : Step α n k) (tokens : List Token) (stands : α → List TokenSlot → Prop) : Prop :=
  s.Ensures (fun a rest notes => ∃ slots, stands a slots ∧ Accounts slots tokens rest notes)
    (fun _ rest _ => rest <:+ tokens)

variable {P : α → List TokenSlot → Prop} {Q : β → List TokenSlot → Prop} {tokens : List Token}

/-- The value may be said to stand for less. -/
theorem Reads.imp {P' : α → List TokenSlot → Prop} {s : Step α n k} (h : s.Reads tokens P)
    (himp : ∀ a slots, P a slots → P' a slots) : s.Reads tokens P' := by
  refine Ensures.imp h ?_ fun _ _ _ hsuffix => hsuffix
  intro a rest notes h
  obtain ⟨slots, hP, haccounts⟩ := h
  exact ⟨slots, himp a slots hP, haccounts⟩

/-- A step that is done at once accounts for nothing, and its value may stand for just that. -/
theorem reads_pure {a : α} (h : P a []) : (pure a tokens).Reads tokens P :=
  (ensures_pure a tokens).2 ⟨[], h, Accounts.refl tokens⟩

/-- A step that fails at once leaves all of its tokens. -/
theorem reads_fail (f : SyntaxFault) : (fail f tokens : Step α tokens.length k).Reads tokens P :=
  (ensures_fail f tokens).2 (List.suffix_refl tokens)

/-- What two steps read is the tokens of the first and then those of the second. -/
theorem reads_bind {s : Step α n k}
    {next : α → (rest : List Token) → rest.length + k ≤ n → Step β rest.length j}
    (h : s.Reads tokens P)
    (hnext : ∀ a rest fits slots, P a slots →
      (next a rest fits).Reads rest (fun b slots' => Q b (slots ++ slots'))) :
    (s.bind next).Reads tokens Q := by
  refine (ensures_bind s next).2 (Ensures.imp h ?_ fun _ _ _ hsuffix => hsuffix)
  intro a rest notes h fits
  obtain ⟨slots, hP, haccounts⟩ := h
  refine Ensures.imp (hnext a rest fits slots hP) ?_
    fun _ _ _ hsuffix => hsuffix.trans haccounts.suffix
  intro b rest' notes' h'
  obtain ⟨slots', hQ, haccounts'⟩ := h'
  exact ⟨slots ++ slots', hQ, haccounts.append haccounts'⟩

/-- A mapped step reads the same tokens, which the image stands for instead. -/
theorem reads_map {s : Step α n k} {g : α → β} (h : s.Reads tokens (fun a => Q (g a))) :
    (s.map g).Reads tokens Q := (ensures_map g s).2 h

/-- What is read does not depend on how many tokens are known to be read. -/
theorem reads_maybe {s : Step α n k} (h : s.Reads tokens P) : s.maybe.Reads tokens P :=
  (ensures_maybe s).2 h

/-- Nor does it if one token is known to be read. -/
theorem reads_once {s : Step α n (k + 1)} (h : s.Reads tokens P) : s.once.Reads tokens P :=
  (ensures_once s).2 h

/-- A token that fits into a slot is read in front of a step. -/
theorem reads_behind {s : Step α tokens.length k} {slot : TokenSlot} {t : Token}
    (hfirst : slot.Admits t)
    (h : s.Reads tokens (fun a slots => P a (slot :: slots))) :
    (s.behind t).Reads (t :: tokens) P := by
  refine (ensures_behind s t).2
    (Ensures.imp h ?_ fun _ _ _ hsuffix => hsuffix.trans (List.suffix_cons t _))
  intro a rest notes h
  obtain ⟨slots, hP, haccounts⟩ := h
  exact ⟨slot :: slots, hP, haccounts.cons hfirst⟩

/-- A token of the kind that is expected fits into the slot for it. -/
theorem reads_expect {kind : Kind} {f : SyntaxFault} {slot : Token → TokenSlot}
    (hfits : ∀ t : Token, t.kind = kind → (slot t).Admits t) :
    (expect kind f tokens).Reads tokens (fun t slots => slots = [slot t]) := by
  cases tokens with
  | nil => exact (ensures_expect_nil kind f).2 (List.suffix_refl [])
  | cons t rest =>
    refine (ensures_expect_cons kind f t rest).2 ?_
    split
    · next hkind => exact ⟨[slot t], rfl, (Accounts.refl rest).cons (hfits t hkind)⟩
    · exact List.suffix_refl (t :: rest)

end Step

namespace Grammar

open Step

/-! ## Expressions -/

/-- Behind the left side of an assignment comes the right side. If there is nothing to assign to,
    all of it is dropped with a note. -/
theorem assignTo_reads (target : Expr) {equals : Token} {tokens : List Token}
    (hequals : equals.kind = .eq) {k : Nat} {value : Step Expr tokens.length k}
    (hvalue : value.Reads tokens (fun v slots => slots = v.slots)) :
    (assignTo target equals (value.behind equals)).Reads (equals :: tokens)
      (fun v slots => v.slots = target.slots ++ slots) := by
  have hfirst : (TokenSlot.ofKind .eq).Admits equals := admits_of_kind rfl hequals
  have hread : (value.behind equals).Reads (equals :: tokens)
      (fun v slots => slots = .ofKind .eq :: v.slots) :=
    reads_behind hfirst (hvalue.imp fun v slots hslots => by rw [hslots])
  unfold assignTo
  split
  · exact reads_map (hread.imp fun v slots hslots => by rw [hslots]; rfl)
  · exact reads_map (hread.imp fun v slots hslots => by rw [hslots]; simp [Expr.slots])
  · refine (ensures_note _ _).2 ((ensures_map _ _).2 (Ensures.imp hread ?_ fun _ _ _ h => h))
    intro v rest notes h
    obtain ⟨slots, rfl, haccounts⟩ := h
    exact ⟨[], (List.append_nil _).symm, haccounts.drop _⟩

-- By recursion on the number of tokens, and where a production passes on to another one without
-- taking any, on how far the other one is down the grammar.
mutual

/-- An expression stands for the tokens that are read for it. -/
theorem expression_reads (tokens : List Token) :
    (expression tokens).Reads tokens (fun e slots => slots = e.slots) := by
  rw [expression]
  -- Only behind the whole left side shows whether it is assigned to.
  apply reads_bind (chain_reads .or tokens)
  intro target rest fits slots hslots
  apply Reads.imp (assignment_reads target rest)
  intro e slots' hslots'
  rw [hslots, hslots']
termination_by 20 * tokens.length + 18
decreasing_by
  all_goals
    have hdepth := Level.or.depth_le
    omega

/-- An assignment stands for its target, which has been read before, and for what is read here. -/
theorem assignment_reads (target : Expr) (tokens : List Token) :
    (assignment target tokens).Reads tokens (fun e slots => e.slots = target.slots ++ slots) := by
  cases tokens with
  | nil =>
    rw [assignment]
    exact reads_pure (List.append_nil _).symm
  | cons t rest =>
    rw [assignment]
    split
    · next hequals => exact reads_maybe (assignTo_reads target hequals (expression_reads rest))
    · exact reads_pure (List.append_nil _).symm
termination_by 20 * tokens.length

/-- A chain stands for the tokens that are read for it. -/
theorem chain_reads (l : Level) (tokens : List Token) :
    (chain l tokens).Reads tokens (fun e slots => slots = e.slots) := by
  rw [chain]
  apply reads_bind (operand_reads l tokens)
  intro left rest fits slots hslots
  apply Reads.imp (chainMore_reads l left rest)
  intro e slots' hslots'
  rw [hslots, hslots']
termination_by 20 * tokens.length + 5 + 2 * l.depth

/-- An operand stands for the tokens that are read for it. -/
theorem operand_reads (l : Level) (tokens : List Token) :
    (operand l tokens).Reads tokens (fun e slots => slots = e.slots) := by
  rw [operand]
  split
  · next tighter htighter =>
    have hdepth := Level.depth_of_tighter? htighter
    exact chain_reads tighter tokens
  · exact unary_reads tokens
termination_by 20 * tokens.length + 4 + 2 * l.depth

/-- The rest of a chain adds the tokens that are read for it to those of the left side. -/
theorem chainMore_reads (l : Level) (left : Expr) (tokens : List Token) :
    (chainMore l left tokens).Reads tokens (fun e slots => e.slots = left.slots ++ slots) := by
  cases tokens with
  | nil =>
    rw [chainMore]
    exact reads_pure (List.append_nil _).symm
  | cons t rest =>
    rw [chainMore]
    split
    · next c hconnective =>
      -- What has been joined so far is the left operand of what follows.
      apply reads_maybe
      apply reads_behind (Connective.slot_admits hconnective)
      apply reads_bind (operand_reads l rest)
      intro right rest' fits slots hslots
      apply Reads.imp (chainMore_reads l (c.join left right t.span) rest')
      intro e slots' hslots'
      rw [hslots', Connective.slots_join, hslots, List.append_assoc, List.cons_append]
    · exact reads_pure (List.append_nil _).symm
termination_by 20 * tokens.length
decreasing_by
  all_goals
    have hdepth := l.depth_le
    rw [List.length_cons]
    omega

/-- A unary expression stands for the tokens that are read for it. -/
theorem unary_reads (tokens : List Token) :
    (unary tokens).Reads tokens (fun e slots => slots = e.slots) := by
  cases tokens with
  | nil =>
    rw [unary]
    exact call_reads []
  | cons t rest =>
    rw [unary]
    split
    · next op hop =>
      have hfixed : op.kind.isFixed = true := by cases op <;> rfl
      -- The tree keeps the operator and its place, and the token has both.
      have hfirst : (TokenSlot.placed (.fixed op.kind) t.span).Admits t :=
        TokenSlot.admits_placed.2
          ⟨(Token.symbol_eq_fixed_iff hfixed).2 (kind_of_unaryOp? hop).symm, rfl⟩
      apply reads_once
      apply reads_behind hfirst
      apply reads_map
      apply Reads.imp (unary_reads rest)
      intro inner slots hslots
      rw [hslots, Expr.slots]
    · exact call_reads (t :: rest)
termination_by 20 * tokens.length + 3

/-- A call stands for the tokens that are read for it. -/
theorem call_reads (tokens : List Token) :
    (call tokens).Reads tokens (fun e slots => slots = e.slots) := by
  rw [call]
  apply reads_bind (primary_reads tokens)
  intro callee rest fits slots hslots
  apply Reads.imp (callMore_reads callee rest)
  intro e slots' hslots'
  rw [hslots, hslots']
termination_by 20 * tokens.length + 2

/-- What follows a callee adds the tokens that are read for it to those of the callee. -/
theorem callMore_reads (callee : Expr) (tokens : List Token) :
    (callMore callee tokens).Reads tokens (fun e slots => e.slots = callee.slots ++ slots) := by
  cases tokens with
  | nil =>
    rw [callMore]
    exact reads_pure (List.append_nil _).symm
  | cons t rest =>
    rw [callMore]
    split
    · next hparen =>
      -- A call, which may be called or indexed again.
      apply reads_maybe
      apply reads_behind (admits_of_kind rfl hparen)
      apply reads_bind (arguments_reads .rParen rest)
      intro args rest' fits slots hslots
      apply reads_bind (reads_expect fun t => kept_admits_of_kind rfl)
      intro paren rest'' fits' slots' hslots'
      apply Reads.imp (callMore_reads (.call callee args paren) rest'')
      intro e slots'' hslots''
      rw [hslots'', hslots, hslots', Expr.slots]
      simp
    · split
      · next hbracket =>
        -- An index, likewise.
        apply reads_maybe
        apply reads_behind (admits_of_kind rfl hbracket)
        apply reads_bind (expression_reads rest)
        intro position rest' fits slots hslots
        apply reads_bind (reads_expect fun t => kept_admits_of_kind rfl)
        intro bracket rest'' fits' slots' hslots'
        apply Reads.imp (callMore_reads (.index callee position bracket) rest'')
        intro e slots'' hslots''
        rw [hslots'', hslots, hslots', Expr.slots]
        simp
      · exact reads_pure (List.append_nil _).symm
termination_by 20 * tokens.length

/-- A primary expression stands for the tokens that are read for it. -/
theorem primary_reads (tokens : List Token) :
    (primary tokens).Reads tokens (fun e slots => slots = e.slots) := by
  cases tokens with
  | nil =>
    rw [primary]
    exact reads_fail _
  | cons t rest =>
    rw [primary]
    split
    · next value hvalue =>
      have hfirst : (TokenSlot.open value.symbol).Admits t :=
        TokenSlot.admits_open.2 (symbol_of_literal? hvalue)
      exact reads_behind hfirst (reads_pure rfl)
    · split
      · next hidentifier => exact reads_behind (name_admits_of_kind hidentifier) (reads_pure rfl)
      · next hparen =>
        -- A group, up to the parenthesis that closes it.
        apply reads_once
        apply reads_behind (admits_of_kind rfl hparen)
        apply reads_bind (expression_reads rest)
        intro inner rest' fits slots hslots
        apply reads_map
        apply Reads.imp (reads_expect fun t => admits_of_kind rfl)
        intro closing slots' hslots'
        rw [hslots, hslots', Expr.slots]
      · next hbracket =>
        -- An array, up to the bracket that closes it.
        apply reads_once
        apply reads_behind (admits_of_kind rfl hbracket)
        apply reads_bind (arguments_reads .rBracket rest)
        intro elements rest' fits slots hslots
        apply reads_map
        apply Reads.imp (reads_expect fun t => admits_of_kind rfl)
        intro closing slots' hslots'
        rw [hslots, hslots', Expr.slots]
      · exact reads_fail _
termination_by 20 * tokens.length + 1

/-- Arguments stand for the tokens up to the closing bracket. -/
theorem arguments_reads (close : Kind) (tokens : List Token) :
    (arguments close tokens).Reads tokens (fun args slots => slots = Expr.slotsOf args) := by
  rw [arguments]
  split
  · exact reads_pure rfl
  · apply reads_maybe
    apply reads_bind (expression_reads tokens)
    intro first rest fits slots hslots
    apply reads_map
    apply Reads.imp (argumentsMore_reads rest)
    intro others slots' hslots'
    -- The first argument and those behind it make up the slots of both.
    rw [hslots, hslots', Expr.slotsOf]
termination_by 20 * tokens.length + 19

/-- Arguments behind the first one stand for their tokens and the commas in front of them. -/
theorem argumentsMore_reads (tokens : List Token) :
    (argumentsMore tokens).Reads tokens (fun args slots => slots = Expr.slotsBehind args) := by
  cases tokens with
  | nil =>
    rw [argumentsMore]
    exact reads_pure rfl
  | cons t rest =>
    rw [argumentsMore]
    split
    · next hcomma =>
      apply reads_maybe
      -- The comma is in no tree, but it has a slot of its own.
      apply reads_behind (admits_of_kind rfl hcomma)
      apply reads_bind (expression_reads rest)
      intro next rest' fits slots hslots
      apply reads_map
      apply Reads.imp (argumentsMore_reads rest')
      intro others slots' hslots'
      rw [hslots, hslots', Expr.slotsBehind]
    · exact reads_pure rfl
termination_by 20 * tokens.length

end

/-! ## Parts of statements -/

/-- An expression that is terminated stands for its tokens, and the semicolon for itself. -/
theorem terminated_reads (fault : SyntaxFault) (tokens : List Token) :
    (terminated fault tokens).Reads tokens
      (fun e slots => slots = e.slots ++ [.ofKind .semi]) := by
  rw [terminated]
  apply reads_once
  apply reads_bind (expression_reads tokens)
  intro e rest fits slots hslots
  apply reads_map
  apply Reads.imp (reads_expect fun t => admits_of_kind rfl)
  intro closing slots' hslots'
  rw [hslots, hslots']

/-- An initial value stands for its tokens and the equals sign in front of them. -/
theorem initializer_reads (tokens : List Token) :
    (initializer tokens).Reads tokens (fun init slots => slots = Expr.initializerSlots init) := by
  cases tokens with
  | nil => exact reads_pure rfl
  | cons t rest =>
    rw [initializer]
    split
    · next hequals =>
      apply reads_maybe
      -- The equals sign has a slot just if there is an initial value.
      apply reads_behind (admits_of_kind rfl hequals)
      apply reads_map
      apply Reads.imp (expression_reads rest)
      intro e slots hslots
      rw [hslots, Expr.initializerSlots]
    · exact reads_pure rfl

/-- Behind its keyword, a declaration of a variable stands for the tokens that are read for it. -/
theorem variableDeclaration_reads (tokens : List Token) :
    (variableDeclaration tokens).Reads tokens
      (fun s slots => s.slots = .ofKind .variableWord :: slots) := by
  rw [variableDeclaration]
  apply reads_once
  apply reads_bind (reads_expect fun t => name_admits_of_kind)
  intro name rest fits slots hslots
  apply reads_bind (initializer_reads rest)
  intro init rest' fits' slots' hslots'
  apply reads_map
  apply Reads.imp (reads_expect fun t => admits_of_kind rfl)
  intro closing slots'' hslots''
  -- The name, the initial value and the semicolon, in the order in which they are read.
  rw [hslots, hslots', hslots'', Stmt.slots]
  rfl

/-- Parameters behind the first one stand for their tokens and the commas in front of them. -/
theorem parametersMore_reads (tokens : List Token) :
    (parametersMore tokens).Reads tokens (fun names slots => slots = Token.slotsBehind names) := by
  cases tokens with
  | nil =>
    rw [parametersMore]
    exact reads_pure rfl
  | cons t rest =>
    rw [parametersMore]
    split
    · next hcomma =>
      apply reads_maybe
      -- As for arguments, with a name in place of each expression.
      apply reads_behind (admits_of_kind rfl hcomma)
      apply reads_bind (reads_expect fun t => name_admits_of_kind)
      intro next rest' fits slots hslots
      apply reads_map
      apply Reads.imp (parametersMore_reads rest')
      intro others slots' hslots'
      rw [hslots, hslots', Token.slotsBehind, Token.slotsBehind, List.flatMap_cons]
      rfl
    · exact reads_pure rfl
termination_by tokens.length

/-- Parameters stand for the tokens up to the closing parenthesis. -/
theorem parameters_reads (tokens : List Token) :
    (parameters tokens).Reads tokens (fun names slots => slots = Token.slotsOf names) := by
  rw [parameters]
  split
  · exact reads_pure rfl
  · apply reads_maybe
    apply reads_bind (reads_expect fun t => name_admits_of_kind)
    intro first rest fits slots hslots
    apply reads_map
    apply Reads.imp (parametersMore_reads rest)
    intro others slots' hslots'
    -- The first parameter and those behind it make up the slots of both.
    rw [hslots, hslots', Token.slotsOf]
    rfl

/-- Behind its keyword, the head of a function stands for the tokens up to the brace. -/
theorem signature_reads (tokens : List Token) :
    (signature tokens).Reads tokens
      (fun head slots => slots = .ofName head.1 :: .ofKind .lParen ::
        (Token.slotsOf head.2 ++ [.ofKind .rParen, .ofKind .lBrace])) := by
  rw [signature]
  apply reads_once
  apply reads_bind (reads_expect fun t => name_admits_of_kind)
  intro name rest fits slots hslots
  apply reads_bind (reads_expect fun t => admits_of_kind rfl)
  intro opening rest₁ fits₁ slots₁ hslots₁
  apply reads_bind (parameters_reads rest₁)
  intro params rest₂ fits₂ slots₂ hslots₂
  apply reads_bind (reads_expect fun t => admits_of_kind rfl)
  intro closing rest₃ fits₃ slots₃ hslots₃
  apply reads_map
  apply Reads.imp (reads_expect fun t => admits_of_kind rfl)
  intro brace slots₄ hslots₄
  -- Five slots or lists of slots, one for each of the steps.
  rw [hslots, hslots₁, hslots₂, hslots₃, hslots₄]
  rfl

/-- A condition stands for its tokens and the parentheses around them. -/
theorem condition_reads (opening closing : SyntaxFault) (tokens : List Token) :
    (condition opening closing tokens).Reads tokens
      (fun e slots => slots = .ofKind .lParen :: (e.slots ++ [.ofKind .rParen])) := by
  rw [condition]
  apply reads_once
  apply reads_bind (reads_expect fun t => admits_of_kind rfl)
  intro paren rest fits slots hslots
  apply reads_bind (expression_reads rest)
  intro e rest' fits' slots' hslots'
  apply reads_map
  apply Reads.imp (reads_expect fun t => admits_of_kind rfl)
  intro paren' slots'' hslots''
  -- The parentheses are slots of the statement, as no tree keeps them.
  rw [hslots, hslots', hslots'']
  rfl

/-- Behind its keyword, a return stands for the tokens that are read for it. -/
theorem result_reads {keyword : Token} (tokens : List Token) :
    (result keyword tokens).Reads tokens
      (fun s slots => s.slots = .kept (.fixed .returnWord) keyword :: slots) := by
  -- There is a value unless a semicolon comes next, so this case arises at two places.
  have hvalue : ∀ tokens, ((terminated .semiAfterReturn tokens).map fun value =>
      Stmt.result keyword (some value)).Reads tokens
        (fun s slots => s.slots = .kept (.fixed .returnWord) keyword :: slots) := by
    intro tokens
    apply reads_map
    apply Reads.imp (terminated_reads _ tokens)
    intro e slots hslots
    rw [hslots, Stmt.slots, Expr.optionalSlots]
  cases tokens with
  | nil => exact hvalue []
  | cons t rest =>
    rw [result]
    split
    · next hsemi => exact reads_behind (admits_of_kind rfl hsemi) (reads_pure rfl)
    · exact hvalue (t :: rest)

/-! ## Recovery -/

/-- Going on behind a token leaves the end of what there was. -/
theorem resumeBehind_suffix (previous : Token) (tokens : List Token) :
    resumeBehind previous tokens <:+ tokens := by
  fun_induction resumeBehind previous tokens with
  | case1 => exact List.suffix_refl _
  | case2 previous t rest _ ih => exact ih.trans (List.suffix_cons t rest)
  | case3 => exact List.suffix_refl _

/-- Recovery leaves the end of what there was. -/
theorem resume_suffix (tokens : List Token) : resume tokens <:+ tokens := by
  cases tokens with
  | nil => exact List.suffix_refl _
  | cons t rest => exact (resumeBehind_suffix t rest).trans (List.suffix_cons t rest)

/-- A declaration accounts for what it reads, by its statement or by nothing. -/
def Recovered.Reads {n : Nat} (r : Recovered n) (tokens : List Token) : Prop :=
  Accounts (Stmt.slotsOf r.statement?.toList) tokens r.rest r.notes

/-- If the grammar is stuck, at least the first token is dropped, and the fault is noted. -/
theorem recover_reads (stop t : Token) (rest : List Token) {s : Step Stmt (rest.length + 1) 1}
    (h : s.Reads (t :: rest) (fun s slots => slots = s.slots)) :
    (recover stop (Nat.succ_pos _) s).Reads (t :: rest) := by
  cases s with
  | done statement rest' notes fits =>
    obtain ⟨slots, rfl, haccounts⟩ := h
    have hslots : Stmt.slotsOf [statement] = statement.slots := by
      rw [Stmt.slotsOf, Stmt.slotsOf, List.append_nil]
    rw [Recovered.Reads, recover, Option.toList_some, hslots]
    exact haccounts
  | stuck fault rest' notes fits =>
    have hsuffix : resume rest' <:+ t :: rest := (resume_suffix rest').trans h
    obtain ⟨taken, htaken⟩ := hsuffix
    -- The fault may be at the first token, and then recovery has to drop that one.
    have hne : taken ≠ [] := by
      intro hnil
      have hlength := congrArg List.length htaken
      have hle := length_resume_le rest'
      rw [hnil, List.nil_append, List.length_cons] at hlength
      omega
    rw [Recovered.Reads, recover, ← htaken]
    exact Accounts.dropped hne (by simp)

/-! ## Statements -/

mutual

/-- A declaration that is read stands for its tokens, and one that is recovered from for none. -/
theorem declaration_reads (stop t : Token) (rest : List Token) :
    (declaration stop t rest).Reads (t :: rest) := by
  rw [declaration]
  exact recover_reads stop t rest (declared_reads stop t rest)
termination_by 10 * rest.length + 14

/-- A declaration that is read stands for its tokens. -/
theorem declared_reads (stop t : Token) (rest : List Token) :
    (declared stop t rest).Reads (t :: rest) (fun s slots => slots = s.slots) := by
  rw [declared]
  split
  · next hvariable =>
    apply reads_once
    apply reads_behind (admits_of_kind rfl hvariable)
    exact (variableDeclaration_reads rest).imp fun s slots hslots => hslots.symm
  · next hfunction =>
    -- The brace that opens the body is part of the signature.
    apply reads_once
    apply reads_behind (admits_of_kind rfl hfunction)
    apply reads_bind (signature_reads rest)
    intro head rest' fits slots hslots
    apply reads_map
    apply Reads.imp (block_reads stop rest')
    intro body slots' hslots'
    rw [hslots, hslots', Stmt.slots]
    simp
  · exact statement_reads stop (t :: rest)
termination_by 10 * rest.length + 13

/-- A statement stands for the tokens that are read for it. -/
theorem statement_reads (stop : Token) (tokens : List Token) :
    (statement stop tokens).Reads tokens (fun s slots => slots = s.slots) := by
  cases tokens with
  | nil =>
    rw [statement]
    exact reads_map (terminated_reads _ [])
  | cons t rest =>
    rw [statement]
    split
    · next what hwhat =>
      -- The three keywords that read are kept in the tree.
      have hfixed : what.kind.isFixed = true := by cases what <;> rfl
      have hkind := (kind_of_readKind? hwhat).symm
      apply reads_once
      apply reads_behind (kept_admits_of_kind hfixed hkind)
      apply reads_map
      apply Reads.imp (terminated_reads _ rest)
      intro target slots hslots
      rw [hslots, Stmt.slots]
    · split
      · next hif =>
        apply reads_once
        apply reads_behind (admits_of_kind rfl hif)
        apply reads_bind (condition_reads _ _ rest)
        intro test rest₁ fits slots hslots
        apply reads_bind (statement_reads stop rest₁)
        intro consequent rest₂ fits₁ slots₁ hslots₁
        -- With or without an `else`, the tree starts with the slots of the one without.
        apply Reads.imp (alternative_reads stop test consequent rest₂)
        intro s slots₂ hslots₂
        rw [hslots, hslots₁, hslots₂, Stmt.slots]
        simp
      · next hwhile =>
        apply reads_once
        apply reads_behind (admits_of_kind rfl hwhile)
        apply reads_bind (condition_reads _ _ rest)
        intro test rest₁ fits slots hslots
        apply reads_map
        apply Reads.imp (statement_reads stop rest₁)
        intro body slots₁ hslots₁
        rw [hslots, hslots₁, Stmt.slots]
        simp
      · next hprint =>
        apply reads_once
        apply reads_behind (kept_admits_of_kind rfl hprint)
        apply reads_map
        apply Reads.imp (terminated_reads _ rest)
        intro value slots hslots
        rw [hslots, Stmt.slots]
      · next hreturn =>
        apply reads_once
        apply reads_behind (kept_admits_of_kind rfl hreturn)
        exact (result_reads rest).imp fun s slots hslots => hslots.symm
      · next hbrace =>
        apply reads_once
        apply reads_behind (admits_of_kind rfl hbrace)
        apply reads_map
        apply Reads.imp (block_reads stop rest)
        intro body slots hslots
        rw [hslots, Stmt.slots]
      · exact reads_map (terminated_reads _ (t :: rest))
termination_by 10 * tokens.length + 2

/-- The other branch of a condition adds its tokens and the `else` to those of the condition. -/
theorem alternative_reads (stop : Token) (test : Expr) (consequent : Stmt) (tokens : List Token) :
    (alternative stop test consequent tokens).Reads tokens
      (fun s slots => s.slots = (Stmt.ifThen test consequent).slots ++ slots) := by
  cases tokens with
  | nil =>
    rw [alternative]
    exact reads_pure (List.append_nil _).symm
  | cons t rest =>
    rw [alternative]
    split
    · next helse =>
      apply reads_maybe
      apply reads_behind (admits_of_kind rfl helse)
      apply reads_map
      apply Reads.imp (statement_reads stop rest)
      intro other slots hslots
      -- Both forms of the condition begin with the same slots, and only one goes on behind them.
      rw [hslots, Stmt.slots, Stmt.slots]
      simp
    · exact reads_pure (List.append_nil _).symm
termination_by 10 * tokens.length

/-- A block stands for its declarations and the brace at its end. -/
theorem block_reads (stop : Token) (tokens : List Token) :
    (block stop tokens).Reads tokens
      (fun body slots => slots = Stmt.slotsOf body ++ [.ofKind .rBrace]) := by
  cases tokens with
  | nil =>
    rw [block]
    exact reads_fail _
  | cons t rest =>
    rw [block]
    split
    · next hbrace => exact reads_behind (admits_of_kind rfl hbrace) (reads_pure rfl)
    · have hfirst := declaration_reads stop t rest
      split
      next statement? rest' notes fits heq =>
      rw [heq] at hfirst
      have hothers := block_reads stop rest'
      -- If the rest of the block is stuck, so is the block: what was read of it does not count.
      rw [Step.Reads, ensures_within, ensures_precede, ensures_map]
      refine Ensures.imp hothers ?_ fun _ _ _ hsuffix => hsuffix.trans hfirst.suffix
      intro body rest'' notes' hbody
      obtain ⟨slots, rfl, haccounts⟩ := hbody
      refine ⟨_, ?_, hfirst.append haccounts⟩
      rw [Stmt.slotsOf_append, List.append_assoc]
termination_by 10 * tokens.length + 5

end

/-- The declarations up to the end account for all tokens. -/
theorem declarations_accounts (stop : Token) (tokens : List Token) :
    Accounts (Stmt.slotsOf (declarations stop tokens).1) tokens []
      (declarations stop tokens).2 := by
  cases tokens with
  | nil =>
    rw [declarations]
    exact Accounts.refl []
  | cons t rest =>
    rw [declarations]
    have hfirst := declaration_reads stop t rest
    split
    next statement? rest' notes fits heq =>
    rw [heq] at hfirst
    have hothers := declarations_accounts stop rest'
    split
    next statements notes' heq' =>
    rw [heq'] at hothers
    rw [Stmt.slotsOf_append]
    -- A declaration that was recovered from has no slots, and a note instead.
    exact hfirst.append hothers
termination_by tokens.length

end Grammar

/-! ## Programs -/

/-- The tokens that are there to be parsed: those in front of the first end mark. -/
def Parsed.front (tokens : List Token) : List Token := tokens.takeWhile (·.kind != .eof)

/-- The program that the parser makes of any tokens stands for tokens that are among them in this
    order, and it stands for all of them if and only if there is nothing wrong. -/
theorem Parsed.yield_ofTokens (tokens : List Token) :
    (ofTokens tokens).program.yield.Sublist ((front tokens).map Token.symbol) ∧
      ((ofTokens tokens).program.yield = (front tokens).map Token.symbol ↔
        (ofTokens tokens).diagnostics = []) := by
  obtain ⟨taken, kept, htaken, hsub, hspells, hnotes⟩ :=
    Grammar.declarations_accounts (stopOf tokens) (front tokens)
  rw [List.append_nil] at htaken
  rw [← htaken] at hsub hnotes
  have hyield : (ofTokens tokens).program.yield = kept.map Token.symbol := hspells.map_symbol.symm
  rw [hyield]
  refine ⟨hsub.map Token.symbol, ?_⟩
  have hdiagnostics : (ofTokens tokens).diagnostics = [] ↔ kept = front tokens := hnotes
  rw [hdiagnostics]
  -- A part of a list that has the symbols of the whole is as long as it, and so is the whole.
  constructor
  · intro heq
    have hlength := congrArg List.length heq
    rw [List.length_map, List.length_map] at hlength
    exact hsub.eq_of_length hlength
  · intro heq
    rw [← heq]

end Treewalk
