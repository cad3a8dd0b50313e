import Treewalk.Grammar.Step

/-!
# What a step ensures

`Step.Ensures` says of the outcome of a production what holds of it: one thing if there is a value,
another if the grammar is stuck. Every way in which productions are put together has an equation
here that says what has to hold of the parts, so a proof about a production goes along its text and
never looks inside of a `Step`.

The notes that a `bind` collects are in the order in which its parts made them, which is why the
conditions on the second part are about the notes of both.
-/

namespace Treewalk.Step

variable {α β : Type} {n k j m : Nat}

/-- What holds of a step: `value` of the value, the tokens that are left and the notes, or else
    `fault` of the fault, the tokens that are left and the notes. -/
def Ensures (s : Step α n k) (value : α → List Token → List Diagnostic → Prop)
    (fault : SyntaxFault → List Token → List Diagnostic → Prop) : Prop :=
  match s with
  | .done a rest notes _ => value a rest notes
  | .stuck f rest notes _ => fault f rest notes

variable {V : α → List Token → List Diagnostic → Prop} {W : β → List Token → List Diagnostic → Prop}
variable {F G : SyntaxFault → List Token → List Diagnostic → Prop}

/-- Less may be demanded of a step than what it ensures. -/
theorem Ensures.imp {V' : α → List Token → List Diagnostic → Prop} {s : Step α n k}
    (h : s.Ensures V F) (hvalue : ∀ a rest notes, V a rest notes → V' a rest notes)
    (hfault : ∀ f rest notes, F f rest notes → G f rest notes) : s.Ensures V' G := by
  cases s with
  | done a rest notes fits => exact hvalue a rest notes h
  | stuck f rest notes fits => exact hfault f rest notes h

/-- A step that is done at once has its value, and leaves its tokens without a note. -/
@[simp] theorem ensures_pure (a : α) (tokens : List Token) :
    (pure a tokens).Ensures V F ↔ V a tokens [] := Iff.rfl

/-- A step that fails at once has its fault, and leaves its tokens without a note. -/
@[simp] theorem ensures_fail (f : SyntaxFault) (tokens : List Token) :
    (fail f tokens : Step α tokens.length k).Ensures V F ↔ F f tokens [] := Iff.rfl

/-- The second step runs on what the first one leaves, and its notes come last. -/
@[simp] theorem ensures_bind (s : Step α n k)
    (next : α → (rest : List Token) → rest.length + k ≤ n → Step β rest.length j) :
    (s.bind next).Ensures W F ↔
      s.Ensures
        (fun a rest notes => ∀ fits,
          (next a rest fits).Ensures (fun b rest' notes' => W b rest' (notes ++ notes'))
            (fun f rest' notes' => F f rest' (notes ++ notes')))
        F := by
  cases s with
  | stuck f rest notes fits => exact Iff.rfl
  | done a rest notes fits =>
    have hnext : (bind (done a rest notes fits) next).Ensures W F ↔
        (next a rest fits).Ensures (fun b rest' notes' => W b rest' (notes ++ notes'))
          (fun f rest' notes' => F f rest' (notes ++ notes')) := by
      rw [bind]
      cases next a rest fits with
      | done b rest' notes' fits' => exact Iff.rfl
      | stuck f rest' notes' fits' => exact Iff.rfl
    -- The bound on what is left is a proof that the step itself carries, so asking for all of them
    -- is asking for this one.
    rw [hnext]
    exact ⟨fun h _ => h, fun h => h fits⟩

/-- A mapped step ensures of the image what the step does of the value. -/
@[simp] theorem ensures_map (g : α → β) (s : Step α n k) :
    (s.map g).Ensures W F ↔ s.Ensures (fun a => W (g a)) F := by
  cases s <;> exact Iff.rfl

/-- Forgetting that tokens were read changes no outcome. -/
@[simp] theorem ensures_maybe (s : Step α n k) : s.maybe.Ensures V F ↔ s.Ensures V F := by
  cases s <;> exact Iff.rfl

/-- Forgetting all but one of the tokens read changes no outcome. -/
@[simp] theorem ensures_once (s : Step α n (k + 1)) : s.once.Ensures V F ↔ s.Ensures V F := by
  cases s <;> exact Iff.rfl

/-- Counting a step among more tokens changes no outcome. -/
@[simp] theorem ensures_within (s : Step α n k) (h : n + j ≤ m) :
    (s.within h).Ensures V F ↔ s.Ensures V F := by
  cases s <;> exact Iff.rfl

/-- A token in front of a step changes none of its outcomes. -/
@[simp] theorem ensures_behind {tokens : List Token} (s : Step α tokens.length k) (t : Token) :
    (s.behind t).Ensures V F ↔ s.Ensures V F := ensures_within s _

/-- A note is made behind the others, and only if there is a value. -/
@[simp] theorem ensures_note (s : Step α n k) (d : Diagnostic) :
    (s.note d).Ensures V F ↔ s.Ensures (fun a rest notes => V a rest (notes ++ [d])) F := by
  cases s <;> exact Iff.rfl

/-- The notes put in front of a step are in front in either outcome. -/
@[simp] theorem ensures_precede (earlier : List Diagnostic) (s : Step α n k) :
    (s.precede earlier).Ensures V F ↔
      s.Ensures (fun a rest notes => V a rest (earlier ++ notes))
        (fun f rest notes => F f rest (earlier ++ notes)) := by
  cases s <;> exact Iff.rfl

/-- The next token has the kind that is expected and is read, or the grammar is stuck in front of
    it. -/
theorem ensures_expect_cons {V : Token → List Token → List Diagnostic → Prop} (kind : Kind)
    (f : SyntaxFault) (t : Token) (rest : List Token) :
    (expect kind f (t :: rest)).Ensures V F ↔
      if t.kind = kind then V t rest [] else F f (t :: rest) [] := by
  rw [expect]
  split <;> exact Iff.rfl

/-- Without tokens, an expected one is missing. -/
theorem ensures_expect_nil {V : Token → List Token → List Diagnostic → Prop} (kind : Kind)
    (f : SyntaxFault) : (expect kind f []).Ensures V F ↔ F f [] [] := Iff.rfl

end Treewalk.Step
