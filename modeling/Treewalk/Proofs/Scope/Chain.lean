import Treewalk.Scope

/-!
# Chains of scopes

A chain goes from a scope to older ones only. So it does not change when scopes are added, or when
scopes that are younger than all of it are given up.

A name has the value of its nearest binding, also when that has been changed (`get?_declare_owner`).
-/

namespace Treewalk.Forest

variable {f g : Forest} {scope : Nat}

/-- The chain of a scope depends on what is around this scope and older ones, and on nothing
    else. -/
theorem chain_congr (h : ∀ s ≤ scope,
    f.scopes[s]?.map Scope.enclosing = g.scopes[s]?.map Scope.enclosing) :
    f.chain scope = g.chain scope := by
  -- The walk goes on in a smaller scope, so the hypothesis is needed for all scopes up to this one.
  induction scope using Nat.strongRecOn with
  | ind scope ih =>
    have hsame := h scope (Nat.le_refl scope)
    rw [chain, chain]
    cases hf : f.scopes[scope]? with
    | none =>
      rw [hf] at hsame
      rw [Option.map_eq_none_iff.1 hsame.symm]
    | some b =>
      rw [hf] at hsame
      obtain ⟨c, hc, henclosing⟩ := Option.map_eq_some_iff.1 hsame.symm
      rw [hc]
      simp only [henclosing]
      split
      · next outer _ =>
        split
        · next hlt => rw [ih outer hlt fun s hs => h s (by omega)]
        · rfl
      · rfl

/-- There is no chain from what is no scope. -/
theorem chain_of_size_le (h : f.size ≤ scope) : f.chain scope = [] := by
  rw [chain, Array.getElem?_eq_none h]

/-- The oldest scope is around all others, and nothing is around it. -/
theorem chain_zero (h : 0 < f.size) : f.chain 0 = [0] := by
  rw [chain, Array.getElem?_eq_getElem h]
  simp only [Nat.not_lt_zero, if_false]
  split <;> rfl

/-! ## New scopes -/

/-- A new scope leaves the others as they were. -/
theorem scopes_push_of_lt (enclosing : Option Nat) (h : scope < f.size) :
    (f.push enclosing).scopes[scope]? = f.scopes[scope]? := by
  have hne : scope ≠ f.scopes.size := Nat.ne_of_lt h
  rw [push, Array.getElem?_push, if_neg hne]

/-- A new scope is empty, and is put into the one it was made in. -/
theorem scopes_push_size (f : Forest) (enclosing : Option Nat) :
    (f.push enclosing).scopes[f.size]? = some (.empty enclosing) := by
  rw [push, size, Array.getElem?_push, if_pos rfl]

/-- A new scope changes no chain that was there before. -/
theorem chain_push_of_lt (enclosing : Option Nat) (h : scope < f.size) :
    (f.push enclosing).chain scope = f.chain scope :=
  chain_congr fun s hs => by rw [scopes_push_of_lt enclosing (Nat.lt_of_le_of_lt hs h)]

/-- The chain of a new scope goes on with that of the scope around it, which has to be there
    already. -/
theorem chain_push_size (f : Forest) (outer : Nat) :
    (f.push (some outer)).chain f.size =
      if outer < f.size then f.size :: f.chain outer else [f.size] := by
  rw [chain, scopes_push_size]
  simp only [Scope.empty]
  split
  · next hlt => rw [chain_push_of_lt _ hlt]
  · rfl

/-- A new scope leaves what the others bind as it was. -/
theorem findIn?_push_of_lt (enclosing : Option Nat) (name : String) (h : scope < f.size) :
    (f.push enclosing).findIn? name scope = f.findIn? name scope := by
  rw [findIn?, findIn?, scopes_push_of_lt enclosing h]

/-- A new scope binds nothing. -/
theorem findIn?_push_size (f : Forest) (enclosing : Option Nat) (name : String) :
    (f.push enclosing).findIn? name f.size = none := by
  rw [findIn?, scopes_push_size]
  rfl

/-- What is no scope binds nothing. -/
theorem findIn?_of_size_le (name : String) (h : f.size ≤ scope) : f.findIn? name scope = none := by
  rw [findIn?, Array.getElem?_eq_none h]
  rfl

/-- What binds a name is a scope. -/
theorem lt_size_of_isSome_findIn? {name : String} (h : (f.findIn? name scope).isSome) :
    scope < f.size := by
  refine Nat.lt_of_not_le fun hge => ?_
  rw [findIn?_of_size_le name hge] at h
  cases h

/-! ## Scopes that are given up -/

/-- Of a forest as many scopes are kept as there are, or as many as are asked for. -/
theorem size_keep (f : Forest) (n : Nat) : (f.keep n).size = min n f.size := by
  simp [keep, size]

/-- The scopes that are kept are as they were. -/
theorem scopes_keep_of_lt {n : Nat} (h : scope < n) :
    (f.keep n).scopes[scope]? = f.scopes[scope]? := by
  rw [keep, ← Array.getElem?_toList, Array.toList_shrink, List.getElem?_take_of_lt h,
    Array.getElem?_toList]

/-- Giving up younger scopes changes no chain. -/
theorem chain_keep_of_lt {n : Nat} (h : scope < n) : (f.keep n).chain scope = f.chain scope :=
  chain_congr fun s hs => by rw [scopes_keep_of_lt (Nat.lt_of_le_of_lt hs h)]

/-- What is bound in a scope that is kept is bound there as it was. -/
theorem findIn?_keep_of_lt {n : Nat} (name : String) (h : scope < n) :
    (f.keep n).findIn? name scope = f.findIn? name scope := by
  rw [findIn?, findIn?, scopes_keep_of_lt h]

/-! ## Bindings -/

/-- Declaring a name in what is no scope does nothing. -/
theorem declare_of_size_le (name : String) (value : Value) (h : f.size ≤ scope) :
    f.declare scope name value = f := by
  obtain ⟨scopes⟩ := f
  have hnone : scopes[scope]? = none := Array.getElem?_eq_none h
  have hsame : scopes.modify scope (·.bind name value) = scopes := by
    apply Array.ext_getElem?
    intro s
    rw [Array.getElem?_modify]
    split
    · next heq => rw [← heq, hnone]; rfl
    · rfl
  rw [declare, hsame]

/-- After the nearest binding of a name has been changed, the name has the new value. -/
theorem get?_declare_owner {owner : Nat} {name : String} (howner : f.owner? scope name = some owner)
    (value : Value) : (f.declare owner name value).get? scope name = some value := by
  -- No scope nearer than the owner binds the name, and the declaration does not change that.
  obtain ⟨hbound, inner, outer, hchain, hinner⟩ := List.find?_eq_some_iff_append.1 howner
  have inside : owner < f.size := lt_size_of_isSome_findIn? hbound
  have hnearer : inner.findSome? ((f.declare owner name value).findIn? name) = none := by
    rw [List.findSome?_eq_none_iff]
    intro s hs
    have hunbound := hinner s hs
    rw [findIn?_declare f inside]
    split
    · next heq => simp [heq.1, hbound] at hunbound
    · simpa using hunbound
  rw [get?, chain_declare, hchain, List.findSome?_append, hnearer, Option.none_or,
    List.findSome?_cons, findIn?_declare f inside, if_pos ⟨rfl, rfl⟩]

end Treewalk.Forest
