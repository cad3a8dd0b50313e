import Treewalk.Proofs.Evaluation.Fuel
import Treewalk.Proofs.Session.Layout
import Treewalk.Proofs.Tree.Pruning

/-!
# Code behind a return is dead

A program and the pruned program do the same on a machine, with the same fuel
(`Program.run_pruned`). The functions that they make have different bodies, and so are the scopes
and the arrays that hold these different. But nothing shows that: the machines agree in all that can
be seen from outside.

So both come to no end, or both come to the same one (`Program.pruned_ends_alike`).
-/

namespace Treewalk

/-- Between two runs on the same machine, the second one of trees that may be pruned. -/
def Link.pruning {m : Machine} (h : 0 < m.scopes.size) : Link where
  scopes := .same m.scopes.size
  functions := .same m.heap.functions
  trees := .pruned
  shared_pos := h

/-- A machine with a global scope is alike to itself where trees count as the same if pruning makes
    them so. -/
theorem Machine.alike_pruning {m : Machine} (h : 0 < m.scopes.size) : m.Alike (.pruning h) m :=
  .refl rfl rfl fun _ => ⟨rfl, List.forall₂_same.2 fun _ _ => rfl, .inl rfl⟩

/-- If only equal spans count as the same, then alike endings without a value are equal. -/
theorem Outcome.Alike.eq {l : Link} (hspan : ∀ {span span' : Span}, l.trees.span span span' →
    span = span')
    {r : Unit → Unit → Prop} {a b : Outcome Unit} (h : a.Alike l r b) : a = b := by
  cases h with
  | done _ => rfl
  | failed fault h => rw [hspan h]
  | unfinished => rfl

namespace Program

/-- With enough fuel, the program comes to this end and leaves this machine. -/
def Ends (p : Program) (m : Machine) (outcome : Outcome Unit) (m' : Machine) : Prop :=
  outcome ≠ .unfinished ∧ ∃ fuel, (p.run fuel).outcome m = (outcome, m')

/-- The program does not come to an end with any fuel. -/
def Diverges (p : Program) (m : Machine) : Prop := ∀ fuel, ((p.run fuel).outcome m).1 = .unfinished

variable {p : Program} {m m₁ m₂ : Machine} {outcome₁ outcome₂ : Outcome Unit}

/-- A program comes to one end only. -/
theorem Ends.unique (h₁ : p.Ends m outcome₁ m₁) (h₂ : p.Ends m outcome₂ m₂) :
    outcome₁ = outcome₂ ∧ m₁ = m₂ := by
  obtain ⟨hne₁, fuel₁, hrun₁⟩ := h₁
  obtain ⟨hne₂, fuel₂, hrun₂⟩ := h₂
  have hmax₁ := p.run_mono (Nat.le_max_left fuel₁ fuel₂) m (by rw [hrun₁]; exact hne₁)
  have hmax₂ := p.run_mono (Nat.le_max_right fuel₁ fuel₂) m (by rw [hrun₂]; exact hne₂)
  exact Prod.mk.inj (hrun₁.symm.trans (hmax₁.symm.trans (hmax₂.trans hrun₂)))

/-- With the same fuel, a program and the pruned program end the same way, and leave machines that
    show the same. -/
theorem run_pruned (p : Program) (h : 0 < m.scopes.size) (fuel : Nat) :
    ((p.run fuel).outcome m).1 = ((p.pruned.run fuel).outcome m).1 ∧
      ((p.run fuel).outcome m).2.Agree ((p.pruned.run fuel).outcome m).2 := by
  have hbody : TreeRelation.pruned.body p.statements p.pruned.statements := .inr rfl
  have hrun : Run.Alike (.pruning h) (fun _ _ => True) (p.run fuel) (p.pruned.run fuel) :=
    (inOrder_alike (execute_alike fuel) hbody).bind fun _ => .pure trivial
  obtain ⟨houtcome, hmachine, -⟩ := hrun m m (m.alike_pruning h) (Shift.rel_same.2 rfl)
  exact ⟨houtcome.eq id, hmachine.agree⟩

/-- **Code behind a return is dead.** From the same machine, a program and the program without what
    stands behind a return in any of its lists of statements both come to no end. Or both come to
    the same one: with success, or with the same fault at the same place. The machines that they
    leave then have the same sink, the same log and the same rest of the input, and show the same
    text for each global. -/
theorem pruned_ends_alike (p : Program) (h : 0 < m.scopes.size) :
    (p.Diverges m ∧ p.pruned.Diverges m) ∨
      ∃ outcome m₁ m₂, p.Ends m outcome m₁ ∧ p.pruned.Ends m outcome m₂ ∧ m₁.Agree m₂ := by
  by_cases hdiverges : p.Diverges m
  · exact .inl ⟨hdiverges, fun fuel => (run_pruned p h fuel).1 ▸ hdiverges fuel⟩
  · obtain ⟨fuel, hfinished⟩ := not_forall.1 hdiverges
    obtain ⟨houtcome, hagree⟩ := run_pruned p h fuel
    have hends : p.Ends m ((p.run fuel).outcome m).1 ((p.run fuel).outcome m).2 :=
      ⟨hfinished, fuel, rfl⟩
    have hends' : p.pruned.Ends m ((p.run fuel).outcome m).1 ((p.pruned.run fuel).outcome m).2 :=
      ⟨hfinished, fuel, by rw [houtcome]⟩
    exact .inr ⟨_, _, _, hends, hends', hagree⟩

/-- A block that prints behind a return, with a function in it that does so as well. -/
theorem pruned_ends_alike_of_block :
    let t : Token := .plain .identifier "f" (.point 0 1)
    let leave : Stmt := .result t none
    let print : Stmt := .print t (.literal .null)
    let p : Program := ⟨[.block [.function t [] [leave, print], leave, print], print]⟩
    let m : Machine := .start [] .unlimited
    0 < m.scopes.size ∧ p.pruned = ⟨[.block [.function t [] [leave], leave], print]⟩ ∧
      ∃ outcome m₁ m₂, p.Ends m outcome m₁ ∧ p.pruned.Ends m outcome m₂ ∧ m₁.Agree m₂ := by
  intro t leave print p m
  have hsize : 0 < m.scopes.size := by decide
  have hends : ((p.run 4).outcome m).1 = .done () := rfl
  -- The program finishes at this fuel, so it does not diverge.
  refine ⟨hsize, rfl, (pruned_ends_alike p hsize).resolve_left fun hdiverges => ?_⟩
  rw [hdiverges.1 4] at hends
  exact nomatch hends

end Program

end Treewalk
