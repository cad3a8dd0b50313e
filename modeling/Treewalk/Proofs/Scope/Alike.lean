import Treewalk.Proofs.Scope.Chain
import Treewalk.Proofs.Value.Alike

/-!
# Scopes of two runs

The scopes of two runs are *alike* if scopes that belong together have chains that belong together
and bind the same names to alike values. Nothing is said about scopes that only one of the runs has:
their bindings may be any. So a name that is looked up in scopes that belong together is found in
both or in none.
-/

namespace Treewalk

/-- Scopes that belong together are in the same scopes and bind the same names to alike values. -/
structure Forest.Alike (l : Link) (f g : Forest) : Prop where
  size : ∃ d, f.size = l.scopes.left + d ∧ g.size = l.scopes.right + d
  chain {i j : Nat} (h : l.scopes.Rel i j) : List.Forall₂ l.scopes.Rel (f.chain i) (g.chain j)
  binding {i j : Nat} (h : l.scopes.Rel i j) (name : String) :
    Option.Rel (Value.Alike l) (f.findIn? name i) (g.findIn? name j)

namespace Forest.Alike

variable {l : Link} {f g f' g' : Forest} {i j : Nat} {v w : Value}

/-- The next scopes of both runs will belong together. -/
theorem rel_size (h : f.Alike l g) : l.scopes.Rel f.size g.size := by
  obtain ⟨d, hleft, hright⟩ := h.size
  rw [hleft, hright]
  exact l.scopes.rel_add d

/-- Scopes that belong together are inside of their forests on both sides or on neither. -/
theorem lt_size_iff (h : f.Alike l g) (hij : l.scopes.Rel i j) : i < f.size ↔ j < g.size :=
  hij.lt_iff h.rel_size

/-! ## What a name stands for -/

/-- A name stands for alike values, or for none in both runs. -/
theorem get? (h : f.Alike l g) (hij : l.scopes.Rel i j) (name : String) :
    Option.Rel (Value.Alike l) (f.get? i name) (g.get? j name) :=
  (h.chain hij).rel_findSome? fun hscope => h.binding hscope name

/-- The nearest scopes that bind a name belong together. -/
theorem owner? (h : f.Alike l g) (hij : l.scopes.Rel i j) (name : String) :
    Option.Rel l.scopes.Rel (f.owner? i name) (g.owner? j name) :=
  (h.chain hij).rel_find? fun hscope => (h.binding hscope name).isSome_eq

/-! ## What changes scopes -/

/-- Binding a name in scopes that belong together keeps scopes alike. -/
theorem declare (h : f.Alike l g) (hij : l.scopes.Rel i j) (name : String) (hvalue : v.Alike l w) :
    (f.declare i name v).Alike l (g.declare j name w) := by
  by_cases hinside : i < f.size
  · have hinside' := (h.lt_size_iff hij).1 hinside
    refine ⟨?_, fun hscope => ?_, fun hscope key => ?_⟩
    · rw [size_declare, size_declare]
      exact h.size
    · rw [chain_declare, chain_declare]
      exact h.chain hscope
    · simp only [findIn?_declare f hinside, findIn?_declare g hinside', hscope.eq_iff hij]
      split
      · exact .some hvalue
      · exact h.binding hscope key
  · -- Outside of the forest a declaration has no effect, and that on both sides.
    have houtside : f.size ≤ i := Nat.le_of_not_lt hinside
    have houtside' : g.size ≤ j := Nat.le_of_not_lt fun hlt => hinside ((h.lt_size_iff hij).2 hlt)
    rw [declare_of_size_le name v houtside, declare_of_size_le name w houtside']
    exact h

/-- New scopes in scopes that belong together belong together. -/
theorem push (h : f.Alike l g) (hij : l.scopes.Rel i j) :
    (f.push (some i)).Alike l (g.push (some j)) := by
  obtain ⟨d, hleft, hright⟩ := h.size
  refine ⟨⟨d + 1, ?_, ?_⟩, fun {a b} hscope => ?_, fun {a b} hscope name => ?_⟩
  · rw [size_push, hleft, Nat.add_assoc]
  · rw [size_push, hright, Nat.add_assoc]
  -- A scope is an old one, the new one, or none at all.
  · obtain hlt | heq | hgt := Nat.lt_trichotomy a f.size
    · rw [chain_push_of_lt _ hlt, chain_push_of_lt _ ((h.lt_size_iff hscope).1 hlt)]
      exact h.chain hscope
    · have heq' := (hscope.eq_iff h.rel_size).1 heq
      subst heq heq'
      rw [chain_push_size, chain_push_size]
      by_cases hlt : i < f.size
      · rw [if_pos hlt, if_pos ((h.lt_size_iff hij).1 hlt)]
        exact .cons hscope (h.chain hij)
      · rw [if_neg hlt, if_neg fun hlt' => hlt ((h.lt_size_iff hij).2 hlt')]
        exact .cons hscope .nil
    · have hgt' := (h.rel_size.lt_iff hscope).1 hgt
      rw [chain_of_size_le (by rw [size_push]; exact hgt),
        chain_of_size_le (by rw [size_push]; exact hgt')]
      exact .nil
  · obtain hlt | heq | hgt := Nat.lt_trichotomy a f.size
    · rw [findIn?_push_of_lt _ name hlt, findIn?_push_of_lt _ name ((h.lt_size_iff hscope).1 hlt)]
      exact h.binding hscope name
    · have heq' := (hscope.eq_iff h.rel_size).1 heq
      subst heq heq'
      rw [findIn?_push_size, findIn?_push_size]
      exact .none
    · have hgt' := (h.rel_size.lt_iff hscope).1 hgt
      rw [findIn?_of_size_le name (by rw [size_push]; exact hgt),
        findIn?_of_size_le name (by rw [size_push]; exact hgt')]
      exact .none

/-- Scopes that are alike are still so without the younger ones that both runs have made since. -/
theorem keep (hnow : f'.Alike l g') (h : f.Alike l g) :
    (f'.keep f.size).Alike l (g'.keep g.size) := by
  obtain ⟨d, hleft, hright⟩ := h.size
  obtain ⟨d', hleft', hright'⟩ := hnow.size
  have hsize : (f'.keep f.size).size ≤ f.size := by rw [size_keep]; omega
  have hsize' : (g'.keep g.size).size ≤ g.size := by rw [size_keep]; omega
  refine ⟨⟨min d d', ?_, ?_⟩, fun {a b} hscope => ?_, fun {a b} hscope name => ?_⟩
  · rw [size_keep]; omega
  · rw [size_keep]; omega
  -- A scope has been kept, or is given up in both runs.
  · by_cases hlt : a < f.size
    · rw [chain_keep_of_lt hlt, chain_keep_of_lt ((h.lt_size_iff hscope).1 hlt)]
      exact hnow.chain hscope
    · have hlt' : ¬ b < g.size := fun hlt' => hlt ((h.lt_size_iff hscope).2 hlt')
      rw [chain_of_size_le (by omega), chain_of_size_le (by omega)]
      exact .nil
  · by_cases hlt : a < f.size
    · rw [findIn?_keep_of_lt name hlt, findIn?_keep_of_lt name ((h.lt_size_iff hscope).1 hlt)]
      exact hnow.binding hscope name
    · have hlt' : ¬ b < g.size := fun hlt' => hlt ((h.lt_size_iff hscope).2 hlt')
      rw [findIn?_of_size_le name (by omega), findIn?_of_size_le name (by omega)]
      exact .none

end Forest.Alike

end Treewalk
